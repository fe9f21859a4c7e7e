import Stacklet.Proofs.NumeralPatterns

set_option autoImplicit false
set_option relaxedAutoImplicit false

/-!
The patterns of pieces. At the head of a source the pattern wins that matches the longest text
there, and of those that match the same text the one with the highest priority. The piece that is
found is what the winner makes of its text, and where nothing matches it is unexpected. The first
character leaves few candidates: all but numbers and names go by it alone.
-/

namespace Stacklet.Lexeme

open RegularExpression Computability

def blankCharacters : List Char := [' ', '\t', '\n', '\r', '\x0c']

def nameStarts : List Char :=
  "abcdefghijklmnopqrstuvwxyzABCDEFGHIJKLMNOPQRSTUVWXYZ_+-*.?!=<>".toList

def nameCharacters : List Char :=
  "abcdefghijklmnopqrstuvwxyzABCDEFGHIJKLMNOPQRSTUVWXYZ0123456789_+-*.?!=<>".toList

def noneOf (cs : List Char) : Language Char := {text | ∃ c, c ∉ cs ∧ text = [c]}

namespace Delimiter

def marks : Delimiter → List Char
  | .quote => ['"']
  | .paren => ['(', ')']

def opening : Delimiter → Char
  | .quote => '"'
  | .paren => '('

/-- `[^"\\]|\\.` or `[^()\\]|\\.` -/
def unit (d : Delimiter) : Language Char :=
  noneOf ('\\' :: d.marks) + (char '\\').matches' * noneOf ['\n']

end Delimiter

/-- `[a-zA-Z_+\-*.?!=<>][a-zA-Z0-9_+\-*.?!=<>]*` -/
def namePattern : RegularExpression Char := oneOf nameStarts * (oneOf nameCharacters).star

inductive Pattern where
  | blanks
  | comment
  | openBrace
  | closeBrace
  | openBracket
  | closeBracket
  | real
  | integer
  | text (d : Delimiter)
  | definition
  | name
deriving DecidableEq

namespace Pattern

def all : List Pattern :=
  [.blanks, .comment, .openBrace, .closeBrace, .openBracket, .closeBracket, .real, .integer,
    .text .quote, .text .paren, .definition, .name]

def texts : Pattern → Language Char
  -- `[ \t\n\r\f]+`
  | .blanks => (oneOf blankCharacters * (oneOf blankCharacters).star).matches'
  -- `%[^\n]*`
  | .comment => (char '%').matches' * (noneOf ['\n'])∗
  | .openBrace => (char '\x7b').matches'
  | .closeBrace => (char '\x7d').matches'
  | .openBracket => (char '[').matches'
  | .closeBracket => (char ']').matches'
  | .real => realPattern.matches'
  | .integer => integerPattern.matches'
  -- `"([^"\\]|\\.)*"` or `\(([^()\\]|\\.)*\)`
  | .text d => (char d.opening).matches' * (d.unit∗ * (char d.closing).matches')
  | .definition => (char '/' * namePattern).matches'
  | .name => namePattern.matches'

/-- The priorities that are given. No other pattern matches a text that a second one matches. -/
def priority? : Pattern → Option Nat
  | .real => some 6
  | .integer => some 5
  | .definition => some 4
  | .name => some 3
  | _ => none

def piece (text : List Char) : Pattern → Piece
  | .blanks | .comment => .gap text.length
  | .openBrace => .lexeme .openBrace text.length
  | .closeBrace => .lexeme .closeBrace text.length
  | .openBracket => .lexeme .openBracket text.length
  | .closeBracket => .lexeme .closeBracket text.length
  | .real =>
      match Numeral.read? text with
      | some n => .lexeme (.real n.realValue) text.length
      | none => .unexpected text.length
  | .integer =>
      match Number.narrow? (decimalValue text) with
      | some k => .lexeme (.int k) text.length
      | none => .tooLarge text.length
  | .text _ => .lexeme (.text (String.ofList (unescape text.tail.dropLast))) text.length
  | .definition => .lexeme (.define (String.ofList text.tail)) text.length
  | .name => .lexeme (.name (String.ofList text)) text.length

def heads (c : Char) : Pattern → Bool
  | .blanks => isBlank c
  | .comment => c == '%'
  | .openBrace => c == '\x7b'
  | .closeBrace => c == '\x7d'
  | .openBracket => c == '['
  | .closeBracket => c == ']'
  | .real | .integer => c == '-' || c.isDigit
  | .text d => c == d.opening
  | .definition => c == '/'
  | .name => isNameStart c

def candidates (c : Char) : List Pattern := all.filter (heads c)

/-- A pattern wins at the head of a source with the longest text that any pattern matches there. Of
the patterns that match this text it has the highest priority. -/
structure Wins (p : Pattern) (text source : List Char) : Prop where
  initial : text <+: source
  matched : text ∈ p.texts
  longest : ∀ (q : Pattern) (other : List Char), other <+: source → other ∈ q.texts →
    other.length ≤ text.length
  first : ∀ q ≠ p, text ∈ q.texts → ∃ lower higher,
    q.priority? = some lower ∧ p.priority? = some higher ∧ lower < higher

def Unmatched (source : List Char) : Prop :=
  ∀ (p : Pattern) (text : List Char), text <+: source → text ∉ p.texts

end Pattern

section Classes

variable {text : List Char}

theorem isNameChar_of_isDigit {c : Char} (digit : c.isDigit = true) : isNameChar c = true := by
  simp [isNameChar, digit]

theorem isNameChar_of_isNameStart {c : Char} (start : isNameStart c = true) :
    isNameChar c = true := by
  simp [isNameChar, start]

theorem range_of_isNameChar {c : Char} (named : isNameChar c = true) :
    33 ≤ c.toNat ∧ c.toNat ≤ 126 := by
  simp only [isNameChar, isNameStart, Bool.or_eq_true, beq_iff_eq] at named
  rcases named with ((((((((((letter | rfl) | rfl) | rfl) | rfl) | rfl) | rfl) | rfl) | rfl) |
    rfl) | rfl) | digit
  · rcases (Bool.or_eq_true _ _).mp letter with upper | lower
    · have range : 65 ≤ c.toNat ∧ c.toNat ≤ 90 := of_decide_eq_true upper
      omega
    · have range : 97 ≤ c.toNat ∧ c.toNat ≤ 122 :=
        ((Bool.and_eq_true _ _).mp lower).imp of_decide_eq_true of_decide_eq_true
      omega
  iterate 10 exact ⟨by decide, by decide⟩
  · have range : 48 ≤ c.toNat ∧ c.toNat ≤ 57 := Char.isDigit_iff_toNat.mp digit
    omega

theorem mem_nameCharacters_iff (c : Char) : c ∈ nameCharacters ↔ isNameChar c = true := by
  refine mem_iff_of_ascii (fun c named => ?_) (by decide +kernel) (by decide +kernel) c
  have range := range_of_isNameChar named
  omega

theorem mem_nameStarts_iff (c : Char) : c ∈ nameStarts ↔ isNameStart c = true := by
  refine mem_iff_of_ascii (fun c start => ?_) (by decide +kernel) (by decide +kernel) c
  have range := range_of_isNameChar (isNameChar_of_isNameStart start)
  omega

theorem mem_blankCharacters_iff (c : Char) : c ∈ blankCharacters ↔ isBlank c = true := by
  simp [blankCharacters, isBlank, or_assoc]

theorem mem_star_noneOf {cs : List Char} : text ∈ (noneOf cs)∗ ↔ ∀ c ∈ text, c ∉ cs :=
  mem_kstar_of_single Iff.rfl

theorem mem_namePattern : text ∈ namePattern.matches' ↔
    ∃ c cs, isNameStart c = true ∧ (∀ d ∈ cs, isNameChar d = true) ∧ text = c :: cs := by
  simp only [namePattern, mem_mul, mem_oneOf, mem_star_oneOf, mem_nameStarts_iff,
    mem_nameCharacters_iff]
  constructor
  · rintro ⟨_, ⟨c, start, rfl⟩, cs, named, rfl⟩
    exact ⟨c, cs, start, named, rfl⟩
  · rintro ⟨c, cs, start, named, rfl⟩
    exact ⟨[c], ⟨c, start, rfl⟩, cs, named, rfl⟩

theorem Numeral.Spelled.isNameChar {n : Numeral} (spelled : n.Spelled text) :
    ∀ c ∈ text, isNameChar c = true := by
  cases spelled with
  | @parts negative whole fraction point tail power digits pointed powered =>
      have named {ds : List Char} (digits : IsDigits ds) : ∀ c ∈ ds, Lexeme.isNameChar c = true :=
        fun c member => isNameChar_of_isDigit (digits.digits c member)
      have signed : ∀ c ∈ signText negative, Lexeme.isNameChar c = true := by
        cases negative <;> exact List.all_eq_true.mp rfl
      have pointing : ∀ c ∈ point, Lexeme.isNameChar c = true := by
        cases pointed with
        | absent => nofun
        | point digits => exact List.forall_mem_cons.mpr ⟨rfl, named digits⟩
      have marked : ∀ c ∈ tail, Lexeme.isNameChar c = true := by
        cases powered with
        | absent => nofun
        | @marked mark sign ds letter digits =>
            refine List.forall_mem_cons.mpr ⟨?_, List.forall_mem_append.mpr ⟨?_, named digits⟩⟩
            · rcases letter with rfl | rfl <;> rfl
            · cases sign <;> exact List.all_eq_true.mp rfl
      simp only [List.forall_mem_append]
      exact ⟨signed, named digits, pointing, marked⟩

theorem Numeral.Spelled.exists_head {n : Numeral} (spelled : n.Spelled text) :
    ∃ c cs, text = c :: cs ∧ (c = '-' ∨ c.isDigit = true) := by
  cases spelled with
  | @parts negative whole _ _ _ _ digits _ _ =>
      cases negative with
      | true => exact ⟨'-', _, rfl, .inl rfl⟩
      | false =>
          obtain ⟨d, ds, rfl⟩ := List.exists_cons_of_ne_nil digits.nonempty
          exact ⟨d, _, rfl, .inr (digits.digits d (by simp))⟩

theorem length_le_takeWhile {p : Char → Bool} {source : List Char} (initial : text <+: source)
    (each : ∀ c ∈ text, p c = true) : text.length ≤ (source.takeWhile p).length := by
  obtain ⟨rest, rfl⟩ := initial
  rw [List.takeWhile_append_of_pos each, List.length_append]
  exact Nat.le_add_right _ _

end Classes

namespace Delimiter

variable {d : Delimiter} {text : List Char}

theorem isPlain_iff (d : Delimiter) (c : Char) :
    d.isPlain c = true ↔ c ≠ '\\' ∧ c ∉ d.marks := by
  cases d
  · simp only [isPlain, marks, Bool.and_eq_true, bne_iff_ne, List.mem_singleton]
    exact and_comm
  · simp only [isPlain, marks, Bool.and_eq_true, bne_iff_ne, List.mem_cons, List.not_mem_nil]
    tauto

theorem body_escape {e : Char} (other : e ≠ '\n') (cs : List Char) :
    d.body ('\\' :: e :: cs) = '\\' :: e :: d.body cs := by
  rw [body, if_neg other]

theorem next_opening (d : Delimiter) (cs : List Char) :
    Piece.next d.opening cs = Piece.ofText d cs := by
  cases d <;> rfl

theorem mem_unit : text ∈ d.unit ↔
    (∃ c, d.isPlain c = true ∧ text = [c]) ∨ ∃ e, e ≠ '\n' ∧ text = ['\\', e] := by
  rw [unit, Language.mem_add, Language.mem_mul]
  refine or_congr ?_ ?_
  · simp only [isPlain_iff, ← not_or, ← List.mem_cons]
    exact Iff.rfl
  · constructor
    · rintro ⟨_, slash, _, ⟨e, other, rfl⟩, rfl⟩
      obtain rfl := mem_char.mp slash
      exact ⟨e, by simpa using other, rfl⟩
    · rintro ⟨e, other, rfl⟩
      exact ⟨['\\'], mem_char.mpr rfl, [e], ⟨e, by simpa using other, rfl⟩, rfl⟩

theorem body_append_of_mem_unit (member : text ∈ d.unit) (rest : List Char) :
    d.body (text ++ rest) = text ++ d.body rest := by
  rcases mem_unit.mp member with ⟨c, plain, rfl⟩ | ⟨e, other, rfl⟩
  · have ordinary := ((d.isPlain_iff c).mp plain).1
    simp [body_cons ordinary, plain]
  · exact body_escape other rest

theorem body_append_of_mem_star (member : text ∈ d.unit∗) (rest : List Char) :
    d.body (text ++ d.closing :: rest) = text := by
  obtain ⟨parts, rfl, each⟩ := Language.mem_kstar.mp member
  clear member
  induction parts with
  | nil =>
      rw [List.flatten_nil, List.nil_append, body_cons d.closing_ne_backslash, isPlain_closing]
      rfl
  | cons part parts ih =>
      obtain ⟨here, later⟩ := List.forall_mem_cons.mp each
      rw [List.flatten_cons, List.append_assoc, body_append_of_mem_unit here,
        ih later]

theorem append_mem_star {part : List Char} (here : part ∈ d.unit) (later : text ∈ d.unit∗) :
    part ++ text ∈ d.unit∗ := by
  obtain ⟨parts, rfl, each⟩ := Language.mem_kstar.mp later
  exact Language.mem_kstar.mpr ⟨part :: parts, rfl, List.forall_mem_cons.mpr ⟨here, each⟩⟩

theorem body_mem_star (d : Delimiter) (cs : List Char) : d.body cs ∈ d.unit∗ := by
  fun_induction body d cs with
  | case1 => exact Language.nil_mem_kstar _
  | case2 cs => exact Language.nil_mem_kstar _
  | case3 c cs other ih => exact append_mem_star (mem_unit.mpr (.inr ⟨c, other, rfl⟩)) ih
  | case4 c cs _ plain ih => exact append_mem_star (mem_unit.mpr (.inl ⟨c, plain, rfl⟩)) ih
  | case5 => exact Language.nil_mem_kstar _

end Delimiter

namespace Pattern

variable {p q : Pattern} {c : Char} {cs text source : List Char}

theorem mem_blanks : text ∈ blanks.texts ↔ text ≠ [] ∧ ∀ c ∈ text, isBlank c = true := by
  simp only [texts, mem_mul, mem_oneOf, mem_star_oneOf, mem_blankCharacters_iff]
  constructor
  · rintro ⟨_, ⟨c, white, rfl⟩, cs, each, rfl⟩
    exact ⟨by simp, List.forall_mem_cons.mpr ⟨white, each⟩⟩
  · rintro ⟨nonempty, each⟩
    obtain ⟨c, cs, rfl⟩ := List.exists_cons_of_ne_nil nonempty
    obtain ⟨white, later⟩ := List.forall_mem_cons.mp each
    exact ⟨[c], ⟨c, white, rfl⟩, cs, later, rfl⟩

theorem mem_comment : text ∈ comment.texts ↔
    ∃ cs : List Char, (∀ c ∈ cs, (c != '\n') = true) ∧ text = '%' :: cs := by
  rw [texts, Language.mem_mul]
  constructor
  · rintro ⟨_, sign, cs, inside, rfl⟩
    obtain rfl := mem_char.mp sign
    exact ⟨cs, by simpa [mem_star_noneOf] using inside, rfl⟩
  · rintro ⟨cs, inside, rfl⟩
    exact ⟨['%'], mem_char.mpr rfl, cs, by simpa [mem_star_noneOf] using inside, rfl⟩

theorem mem_text {d : Delimiter} : text ∈ (Pattern.text d).texts ↔
    ∃ inner ∈ d.unit∗, text = d.opening :: (inner ++ [d.closing]) := by
  simp only [texts, Language.mem_mul, mem_char]
  constructor
  · rintro ⟨_, rfl, _, ⟨inner, member, _, rfl, rfl⟩, rfl⟩
    exact ⟨inner, member, rfl⟩
  · rintro ⟨inner, member, rfl⟩
    exact ⟨_, rfl, _, ⟨inner, member, _, rfl, rfl⟩, rfl⟩

theorem mem_definition : text ∈ definition.texts ↔
    ∃ cs ∈ namePattern.matches', text = '/' :: cs := by
  simp only [texts, mem_mul, mem_char]
  constructor
  · rintro ⟨_, rfl, cs, named, rfl⟩
    exact ⟨cs, named, rfl⟩
  · rintro ⟨cs, named, rfl⟩
    exact ⟨_, rfl, cs, named, rfl⟩

theorem length_piece (p : Pattern) (text : List Char) : (p.piece text).length = text.length := by
  cases p with
  | real =>
      simp only [piece]
      cases Numeral.read? text <;> rfl
  | integer =>
      simp only [piece]
      cases Number.narrow? (decimalValue text) <;> rfl
  | _ => rfl

/-- Only an integer can be of no use, if 64 bits do not hold it. -/
theorem eq_integer_of_isProper_eq_false (matched : text ∈ p.texts)
    (improper : (p.piece text).isProper = false) :
    p = .integer ∧ Number.narrow? (decimalValue text) = none := by
  cases p with
  | real =>
      obtain ⟨n, spelled⟩ := mem_patterns_iff.mp (.inl matched)
      rw [piece, spelled.read?_eq] at improper
      cases improper
  | integer =>
      refine ⟨rfl, ?_⟩
      rw [piece] at improper
      cases narrowed : Number.narrow? (decimalValue text) with
      | none => rfl
      | some k =>
          rw [narrowed] at improper
          cases improper
  | _ => cases improper

theorem mem_all (p : Pattern) : p ∈ all := by
  rcases p with _ | _ | _ | _ | _ | _ | _ | _ | (_ | _) | _ | _ <;> decide

theorem exists_head (matched : text ∈ p.texts) : ∃ c cs, text = c :: cs ∧ p.heads c = true := by
  have numeral : text ∈ realPattern.matches' ∨ text ∈ integerPattern.matches' →
      ∃ c cs, text = c :: cs ∧ (c == '-' || c.isDigit) = true := by
    intro either
    obtain ⟨n, spelled⟩ := mem_patterns_iff.mp either
    obtain ⟨c, cs, shape, first⟩ := spelled.exists_head
    exact ⟨c, cs, shape, by simpa using first⟩
  cases p with
  | blanks =>
      obtain ⟨nonempty, each⟩ := mem_blanks.mp matched
      obtain ⟨c, cs, rfl⟩ := List.exists_cons_of_ne_nil nonempty
      exact ⟨c, cs, rfl, each c (by simp)⟩
  | comment =>
      obtain ⟨cs, _, rfl⟩ := mem_comment.mp matched
      exact ⟨'%', cs, rfl, rfl⟩
  | openBrace => exact ⟨_, [], mem_char.mp matched, rfl⟩
  | closeBrace => exact ⟨_, [], mem_char.mp matched, rfl⟩
  | openBracket => exact ⟨_, [], mem_char.mp matched, rfl⟩
  | closeBracket => exact ⟨_, [], mem_char.mp matched, rfl⟩
  | real => exact numeral (.inl matched)
  | integer => exact numeral (.inr matched)
  | text d =>
      obtain ⟨inner, _, rfl⟩ := mem_text.mp matched
      exact ⟨_, _, rfl, beq_self_eq_true d.opening⟩
  | definition =>
      obtain ⟨cs, _, rfl⟩ := mem_definition.mp matched
      exact ⟨'/', cs, rfl, rfl⟩
  | name =>
      obtain ⟨c, cs, start, _, rfl⟩ := mem_namePattern.mp matched
      exact ⟨c, cs, rfl, start⟩

theorem mem_candidates (matched : text ∈ p.texts) (initial : text <+: c :: cs) :
    p ∈ candidates c := by
  obtain ⟨d, ds, rfl, headed⟩ := exists_head matched
  obtain ⟨rfl, _⟩ := List.cons_prefix_cons.mp initial
  exact List.mem_filter.mpr ⟨p.mem_all, headed⟩

/-- Where one pattern alone can match, it wins with its longest text. -/
theorem Wins.of_candidates (alone : candidates c = [p]) (initial : text <+: c :: cs)
    (matched : text ∈ p.texts)
    (longest : ∀ other, other <+: c :: cs → other ∈ p.texts → other.length ≤ text.length) :
    p.Wins text (c :: cs) := by
  have same (q : Pattern) {other : List Char} (found : other ∈ q.texts)
      (initial : other <+: c :: cs) : q = p := by
    have candidate := mem_candidates found initial
    rw [alone] at candidate
    exact List.mem_singleton.mp candidate
  refine ⟨initial, matched, ?_, ?_⟩
  · intro q other initial found
    exact longest other initial (same q found initial ▸ found)
  · intro q differs found
    exact absurd (same q found initial) differs

theorem Unmatched.of_candidates (alone : candidates c = [p])
    (none : ∀ text, text <+: c :: cs → text ∉ p.texts) : Unmatched (c :: cs) := by
  intro q text initial found
  have candidate := mem_candidates found initial
  rw [alone] at candidate
  exact none text initial (List.mem_singleton.mp candidate ▸ found)

theorem Wins.unique {other : List Char} (first : p.Wins text source)
    (second : q.Wins other source) : p = q ∧ text = other := by
  have lengths : text.length = other.length :=
    Nat.le_antisymm (second.longest p text first.initial first.matched)
      (first.longest q other second.initial second.matched)
  have same : text = other :=
    (List.prefix_of_prefix_length_le first.initial second.initial
      (Nat.le_of_eq lengths)).eq_of_length lengths
  subst same
  refine ⟨?_, rfl⟩
  by_contra differs
  obtain ⟨a, b, qa, pb, below⟩ := first.first q (Ne.symm differs) second.matched
  obtain ⟨a', b', pa, qb, above⟩ := second.first p differs first.matched
  rw [pb] at pa
  rw [qa] at qb
  cases pa
  cases qb
  omega

end Pattern

inductive Chosen (source : List Char) : Piece → Prop
  | winner {p : Pattern} {text : List Char} : p.Wins text source → Chosen source (p.piece text)
  | unmatched {n : Nat} : Pattern.Unmatched source → Chosen source (.unexpected n)

def Numeral.pattern (n : Numeral) : Pattern := if n.isReal then .real else .integer

namespace Numeral

variable {n : Numeral} {text source : List Char}

theorem Spelled.mem_pattern_iff (spelled : n.Spelled text) {p : Pattern}
    (numeric : p = .real ∨ p = .integer) : text ∈ p.texts ↔ p = n.pattern := by
  rcases numeric with rfl | rfl
  · rw [Pattern.texts, mem_realPattern_of_spelled spelled, pattern]
    cases n.isReal <;> simp
  · rw [Pattern.texts, mem_integerPattern_of_spelled spelled, pattern]
    cases n.isReal <;> simp

theorem pattern_numeric (n : Numeral) : n.pattern = .real ∨ n.pattern = .integer := by
  unfold pattern
  split
  · exact .inl rfl
  · exact .inr rfl

theorem Spelled.piece_pattern (spelled : n.Spelled text) :
    n.pattern.piece text = Piece.ofNumeral n := by
  unfold pattern Piece.ofNumeral
  cases kind : n.isReal with
  | true => simp [Pattern.piece, spelled.read?_eq, spelled.length_eq]
  | false =>
      have value := spelled.decimalValue_eq kind
      cases narrowed : Number.narrow? n.intValue with
      | none => simp [Pattern.piece, value, narrowed, spelled.length_eq]
      | some k => simp [Pattern.piece, value, narrowed, spelled.length_eq]

/-- A numeral wins over names that are as long. -/
theorem Spelled.wins (spelled : n.Spelled text) (initial : text <+: source)
    (candidates : ∀ (q : Pattern) (other : List Char), other <+: source → other ∈ q.texts →
      (q = .real ∨ q = .integer ∨ q = .name) ∧ other.length ≤ text.length) :
    n.pattern.Wins text source := by
  have matched := (spelled.mem_pattern_iff n.pattern_numeric).mpr rfl
  refine ⟨initial, matched, fun q other start found => (candidates q other start found).2, ?_⟩
  intro q differs found
  obtain ⟨kind, _⟩ := candidates q text initial found
  have named : q = .name := by
    rcases kind with real | integer | name
    · exact absurd ((spelled.mem_pattern_iff (.inl real)).mp found) differs
    · exact absurd ((spelled.mem_pattern_iff (.inr integer)).mp found) differs
    · exact name
  subst named
  rcases n.pattern_numeric with real | integer
  · exact ⟨3, 6, rfl, by rw [real]; rfl, by decide⟩
  · exact ⟨3, 5, rfl, by rw [integer]; rfl, by decide⟩

end Numeral

namespace Piece

open Pattern

variable {c : Char} {cs run : List Char}

theorem next_of_isNameStart (start : isNameStart c = true) (digit : c.isDigit = false) :
    next c cs = ofRun (c :: cs.takeWhile isNameChar) := by
  have differs (d : Char) (other : isNameStart d = false) : c ≠ d := by
    rintro rfl
    rw [start] at other
    cases other
  have black : isBlank c = false := by
    simp (disch := decide) [isBlank, differs]
  simp (disch := decide) [next, black, differs, digit, start]

theorem ofRun_of_unspelled (none : ∀ n : Numeral, ¬ n.Spelled run) :
    ofRun run = .lexeme (.name (String.ofList run)) run.length := by
  unfold ofRun
  split
  · rename_i n read
    rw [if_neg fun whole => none n (Numeral.spelled_iff.mpr ⟨read, whole⟩)]
  · rfl

theorem chosen_blank (white : isBlank c = true) (cs : List Char) :
    Chosen (c :: cs) (next c cs) := by
  have alone : ∀ d ∈ blankCharacters, candidates d = [.blanks] := forall_mem_of_all (by decide)
  have run : (c :: cs).takeWhile isBlank = c :: cs.takeWhile isBlank := by simp [white]
  have wins : blanks.Wins (c :: cs.takeWhile isBlank) (c :: cs) := by
    refine .of_candidates (alone c ((mem_blankCharacters_iff c).mpr white)) ?_ ?_ ?_
    · rw [← run]
      exact List.takeWhile_prefix _
    · refine mem_blanks.mpr ⟨by simp, ?_⟩
      rw [← run]
      exact List.all_eq_true.mp List.all_takeWhile
    · intro other initial found
      rw [← run]
      exact length_le_takeWhile initial (mem_blanks.mp found).2
  rw [next_of_blank white]
  exact .winner wins

theorem chosen_comment (cs : List Char) : Chosen ('%' :: cs) (next '%' cs) := by
  have wins : comment.Wins ('%' :: cs.takeWhile (· != '\n')) ('%' :: cs) := by
    refine .of_candidates rfl ?_ ?_ ?_
    · exact (List.prefix_cons_inj _).mpr (List.takeWhile_prefix _)
    · exact mem_comment.mpr ⟨_, List.all_eq_true.mp List.all_takeWhile, rfl⟩
    · intro other initial found
      obtain ⟨inner, inside, rfl⟩ := mem_comment.mp found
      have within := length_le_takeWhile ((List.prefix_cons_inj _).mp initial) inside
      exact Nat.succ_le_succ within
  exact .winner wins

theorem wins_single {p : Pattern} (alone : candidates c = [p]) (single : p.texts = {[c]})
    (cs : List Char) : p.Wins [c] (c :: cs) := by
  refine .of_candidates alone ⟨cs, rfl⟩ ?_ ?_
  · rw [single]
    rfl
  · intro other _ found
    rw [single] at found
    rw [Set.mem_singleton_iff.mp found]

theorem chosen_text (d : Delimiter) (cs : List Char) :
    Chosen (d.opening :: cs) (next d.opening cs) := by
  have alone : candidates d.opening = [.text d] := by
    cases d <;> rfl
  have closed {other : List Char} (initial : other <+: d.opening :: cs)
      (found : other ∈ (Pattern.text d).texts) :
      ∃ rest, cs.drop (d.body cs).length = d.closing :: rest ∧
        other.length = (d.body cs).length + 2 := by
    obtain ⟨inner, member, rfl⟩ := mem_text.mp found
    obtain ⟨rest, split⟩ := (List.prefix_cons_inj _).mp initial
    have whole : cs = inner ++ d.closing :: rest := by rw [← split, List.append_assoc]; rfl
    have body : d.body cs = inner := by
      rw [whole]
      exact d.body_append_of_mem_star member rest
    exact ⟨rest, by rw [body, whole, List.drop_left], by simp [body]⟩
  rw [d.next_opening]
  by_cases ended : ∃ rest, cs.drop (d.body cs).length = d.closing :: rest
  · obtain ⟨rest, behind⟩ := ended
    have split : cs = d.body cs ++ [d.closing] ++ rest := by
      rw [List.append_assoc, List.singleton_append, ← behind]
      exact (d.body_append_drop cs).symm
    have wins : (Pattern.text d).Wins (d.opening :: (d.body cs ++ [d.closing]))
        (d.opening :: cs) := by
      refine .of_candidates alone ?_ (mem_text.mpr ⟨_, d.body_mem_star cs, rfl⟩) ?_
      · exact (List.prefix_cons_inj _).mpr ⟨rest, split.symm⟩
      · intro other initial found
        obtain ⟨_, _, length⟩ := closed initial found
        simp [length]
    have piece : ofText d cs =
        (Pattern.text d).piece (d.opening :: (d.body cs ++ [d.closing])) := by
      simp [ofText, behind, Pattern.piece]
    rw [piece]
    exact .winner wins
  · have unclosed : ofText d cs = .unexpected ((d.body cs).length + 1) := by
      unfold ofText
      dsimp only
      split
      · rename_i e rest behind
        rw [if_neg]
        rintro rfl
        exact ended ⟨rest, behind⟩
      · rfl
    rw [unclosed]
    refine .unmatched (.of_candidates alone fun other initial found => ?_)
    obtain ⟨rest, behind, _⟩ := closed initial found
    exact ended ⟨rest, behind⟩

theorem chosen_definition (cs : List Char) : Chosen ('/' :: cs) (next '/' cs) := by
  have sign : next '/' cs = ofDefinition cs := rfl
  have matched {other : List Char} (initial : other <+: '/' :: cs)
      (found : other ∈ definition.texts) :
      ∃ d run, isNameStart d = true ∧ cs.takeWhile isNameChar = d :: run ∧
        other.length ≤ run.length + 2 := by
    obtain ⟨_, named, rfl⟩ := mem_definition.mp found
    obtain ⟨d, ds, start, each, rfl⟩ := mem_namePattern.mp named
    obtain ⟨rest, rfl⟩ := (List.prefix_cons_inj _).mp initial
    have first := isNameChar_of_isNameStart start
    refine ⟨d, (ds ++ rest).takeWhile isNameChar, start, by simp [first], ?_⟩
    have within := length_le_takeWhile (List.prefix_append ds rest) each
    simp only [List.length_cons]
    omega
  by_cases started : ∃ d run, isNameStart d = true ∧ cs.takeWhile isNameChar = d :: run
  · obtain ⟨d, run, start, shape⟩ := started
    have named : ∀ e ∈ d :: run, isNameChar e = true := by
      rw [← shape]
      exact List.all_eq_true.mp List.all_takeWhile
    have wins : definition.Wins ('/' :: d :: run) ('/' :: cs) := by
      refine .of_candidates rfl ?_ ?_ ?_
      · rw [← shape]
        exact (List.prefix_cons_inj _).mpr (List.takeWhile_prefix _)
      · refine mem_definition.mpr ⟨d :: run, mem_namePattern.mpr ⟨d, run, start, ?_, rfl⟩, rfl⟩
        exact (List.forall_mem_cons.mp named).2
      · intro other initial found
        obtain ⟨_, _, _, shape', length⟩ := matched initial found
        cases shape.symm.trans shape'
        exact length
    have piece : next '/' cs = definition.piece ('/' :: d :: run) := by
      simp [sign, ofDefinition, shape, start, Pattern.piece]
    rw [piece]
    exact .winner wins
  · have unnamed : next '/' cs = .unexpected 1 := by
      rw [sign, ofDefinition]
      split
      · rfl
      · rename_i d run shape
        rw [if_neg fun start => started ⟨d, run, start, shape⟩]
    rw [unnamed]
    refine .unmatched (.of_candidates rfl fun other initial found => ?_)
    obtain ⟨d, run, start, shape, _⟩ := matched initial found
    exact started ⟨d, run, start, shape⟩

theorem chosen_digit (digit : c.isDigit = true) (cs : List Char) :
    Chosen (c :: cs) (next c cs) := by
  have numeric : ∀ d ∈ "0123456789".toList, candidates d = [.real, .integer] :=
    forall_mem_of_all (by decide)
  obtain ⟨n, read⟩ := Numeral.exists_read?_of_isDigit digit cs
  obtain ⟨text, rest, split, spelled⟩ := Numeral.exists_spelled_of_read? read
  rw [next_of_isDigit digit read, ← spelled.piece_pattern]
  refine .winner (spelled.wins ⟨rest, split.symm⟩ ?_)
  intro q other initial found
  have candidate := mem_candidates found initial
  rw [numeric c ((mem_digits_iff c).mpr digit)] at candidate
  obtain ⟨m, written⟩ : ∃ m : Numeral, m.Spelled other := by
    rcases List.mem_pair.mp candidate with rfl | rfl
    · exact mem_patterns_iff.mp (.inl found)
    · exact mem_patterns_iff.mp (.inr found)
  refine ⟨?_, ?_⟩
  · rcases List.mem_pair.mp candidate with rfl | rfl <;> simp
  · obtain ⟨behind, whole⟩ := initial
    rw [← whole] at read
    rw [spelled.length_eq]
    exact Numeral.length_le_of_spelled read written

theorem chosen_nameStart (start : isNameStart c = true) (cs : List Char) :
    Chosen (c :: cs) (next c cs) := by
  have listed := (mem_nameStarts_iff c).mpr start
  have undigited : ∀ d ∈ nameStarts, d.isDigit = false := forall_mem_of_all (by decide +kernel)
  have kinds : ∀ d ∈ nameStarts, ∀ q ∈ candidates d, q = .real ∨ q = .integer ∨ q = .name :=
    forall_mem_of_all (by decide +kernel)
  have run : (c :: cs).takeWhile isNameChar = c :: cs.takeWhile isNameChar := by
    simp [isNameChar_of_isNameStart start]
  have initial : c :: cs.takeWhile isNameChar <+: c :: cs := by
    rw [← run]
    exact List.takeWhile_prefix _
  have bounded (q : Pattern) (other : List Char) (part : other <+: c :: cs)
      (found : other ∈ q.texts) : (q = .real ∨ q = .integer ∨ q = .name) ∧
        other.length ≤ (c :: cs.takeWhile isNameChar).length := by
    have kind := kinds c listed q (mem_candidates found part)
    refine ⟨kind, ?_⟩
    rw [← run]
    refine length_le_takeWhile part ?_
    have numeral : (∃ n : Numeral, n.Spelled other) → ∀ d ∈ other, isNameChar d = true :=
      fun ⟨_, spelled⟩ => spelled.isNameChar
    rcases kind with rfl | rfl | rfl
    · exact numeral (mem_patterns_iff.mp (.inl found))
    · exact numeral (mem_patterns_iff.mp (.inr found))
    · obtain ⟨d, ds, first, each, rfl⟩ := mem_namePattern.mp found
      exact List.forall_mem_cons.mpr ⟨isNameChar_of_isNameStart first, each⟩
  rw [next_of_isNameStart start (undigited c listed)]
  by_cases numeral : ∃ n : Numeral, n.Spelled (c :: cs.takeWhile isNameChar)
  · obtain ⟨n, spelled⟩ := numeral
    rw [ofRun_of_spelled spelled, ← spelled.piece_pattern]
    exact .winner (spelled.wins initial bounded)
  · have wins : Pattern.name.Wins (c :: cs.takeWhile isNameChar) (c :: cs) := by
      refine ⟨initial, ?_, fun q other part found => (bounded q other part found).2, ?_⟩
      · exact mem_namePattern.mpr ⟨c, _, start, List.all_eq_true.mp List.all_takeWhile, rfl⟩
      · intro q differs found
        rcases (bounded q _ initial found).1 with rfl | rfl | rfl
        · exact absurd (mem_patterns_iff.mp (.inl found)) numeral
        · exact absurd (mem_patterns_iff.mp (.inr found)) numeral
        · exact absurd rfl differs
    rw [ofRun_of_unspelled (not_exists.mp numeral)]
    exact .winner wins

/-- The piece at the head of a source is chosen by the patterns. -/
theorem chosen_next (c : Char) (cs : List Char) : Chosen (c :: cs) (next c cs) := by
  by_cases headed : ∃ p : Pattern, p.heads c = true
  · obtain ⟨p, first⟩ := headed
    have numeric (either : (c == '-' || c.isDigit) = true) : Chosen (c :: cs) (next c cs) := by
      rcases (Bool.or_eq_true _ _).mp either with minus | digit
      · obtain rfl := beq_iff_eq.mp minus
        exact chosen_nameStart rfl cs
      · exact chosen_digit digit cs
    cases p with
    | blanks => exact chosen_blank first cs
    | comment =>
        obtain rfl := beq_iff_eq.mp first
        exact chosen_comment cs
    | openBrace =>
        obtain rfl := beq_iff_eq.mp first
        exact .winner (wins_single (p := .openBrace) rfl rfl cs)
    | closeBrace =>
        obtain rfl := beq_iff_eq.mp first
        exact .winner (wins_single (p := .closeBrace) rfl rfl cs)
    | openBracket =>
        obtain rfl := beq_iff_eq.mp first
        exact .winner (wins_single (p := .openBracket) rfl rfl cs)
    | closeBracket =>
        obtain rfl := beq_iff_eq.mp first
        exact .winner (wins_single (p := .closeBracket) rfl rfl cs)
    | real => exact numeric first
    | integer => exact numeric first
    | text d =>
        obtain rfl := beq_iff_eq.mp first
        exact chosen_text d cs
    | definition =>
        obtain rfl := beq_iff_eq.mp first
        exact chosen_definition cs
    | name => exact chosen_nameStart first cs
  · have free (p : Pattern) : p.heads c = false := by
      simpa using not_exists.mp headed p
    have other : next c cs = .unexpected 1 := by
      have blank : isBlank c = false := free .blanks
      have start : isNameStart c = false := free .name
      have digit : c.isDigit = false := (Bool.or_eq_false_iff.mp (free .real)).2
      have differs (p : Pattern) {d : Char} (sign : p.heads c = (c == d)) : c ≠ d := by
        simpa [sign] using free p
      simp [next, blank, start, digit, differs .comment rfl, differs .openBrace rfl,
        differs .closeBrace rfl, differs .openBracket rfl, differs .closeBracket rfl,
        differs (.text .quote) (d := '"') rfl, differs (.text .paren) (d := '(') rfl,
        differs .definition rfl]
    rw [other]
    refine .unmatched fun p text initial found => ?_
    have candidate := (List.mem_filter.mp (mem_candidates found initial)).2
    rw [free p] at candidate
    cases candidate

theorem wins_or_unmatched {rest : List Char}
    (taken : (next c (cs ++ rest)).length = cs.length + 1) :
    (∃ p : Pattern, p.Wins (c :: cs) (c :: cs ++ rest) ∧ next c (cs ++ rest) = p.piece (c :: cs)) ∨
      Unmatched (c :: cs ++ rest) ∧ (next c (cs ++ rest)).isProper = false := by
  have chosen := chosen_next c (cs ++ rest)
  generalize next c (cs ++ rest) = piece at taken chosen
  cases chosen with
  | unmatched none => exact .inr ⟨none, rfl⟩
  | @winner p text wins =>
      rw [p.length_piece] at taken
      have same : text = c :: cs :=
        (List.prefix_of_prefix_length_le wins.initial (List.prefix_append (c :: cs) rest)
          (Nat.le_of_eq taken)).eq_of_length taken
      subst same
      exact .inl ⟨p, wins, rfl⟩

end Piece

end Stacklet.Lexeme
