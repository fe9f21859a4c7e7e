import Mathlib.Computability.RegularExpressions
import Mathlib.Data.List.TakeWhile
import Mathlib.Data.Nat.Digits.Defs
import Stacklet.Proofs.PieceExtent

set_option autoImplicit false
set_option relaxedAutoImplicit false

/-!
Numerals and the patterns that they match. How a numeral is written follows from its parts, but for
the letter before a power of ten. What is read at the head of a source is written there and is the
longest that is, and what is written in full is read in full. So the texts of the numerals of either
kind are those that a regular expression matches.
-/

namespace Stacklet.Lexeme

structure IsDigits (ds : List Char) : Prop where
  nonempty : ds ≠ []
  digits : ∀ c ∈ ds, c.isDigit = true

inductive PowerSpelled : Option Power → List Char → Prop
  | absent : PowerSpelled none []
  | marked {mark : Char} {sign : PowerSign} {ds : List Char} :
      mark = 'e' ∨ mark = 'E' → IsDigits ds →
        PowerSpelled (some ⟨sign, ds⟩) (mark :: (sign.text ++ ds))

inductive FractionSpelled : (fraction text : List Char) → Prop
  | absent : FractionSpelled [] []
  | point {ds : List Char} : IsDigits ds → FractionSpelled ds ('.' :: ds)

def signText : (negative : Bool) → List Char
  | false => []
  | true => ['-']

inductive Numeral.Spelled : Numeral → List Char → Prop
  | parts {negative : Bool} {whole fraction point tail : List Char} {power : Option Power} :
      IsDigits whole → FractionSpelled fraction point → PowerSpelled power tail →
        Spelled ⟨negative, whole, fraction, power⟩
          (signText negative ++ (whole ++ (point ++ tail)))

theorem IsDigits.spelled {ds : List Char} (digits : IsDigits ds) (negative : Bool) :
    Numeral.Spelled ⟨negative, ds, [], none⟩ (signText negative ++ ds) := by
  have parts : Numeral.Spelled ⟨negative, ds, [], none⟩ _ := .parts digits .absent .absent
  rwa [List.append_nil, List.append_nil] at parts

theorem ne_of_isDigit {c d : Char} (digit : c.isDigit = true) (other : d.isDigit = false) :
    c ≠ d := by
  rintro rfl
  rw [digit] at other
  cases other

theorem digitRun_append {ds rest : List Char} (digits : ∀ c ∈ ds, c.isDigit = true)
    (stopped : ∀ c ∈ rest.head?, c.isDigit = false) : digitRun (ds ++ rest) = ds := by
  rw [digitRun, List.takeWhile_append_of_pos digits]
  cases rest with
  | nil => exact List.append_nil ds
  | cons c rest =>
      rw [List.takeWhile_cons_of_neg (by simp [stopped c rfl]), List.append_nil]

theorem exists_digitRun (cs : List Char) :
    ∃ rest, cs = digitRun cs ++ rest ∧ ∀ c ∈ digitRun cs, c.isDigit = true := by
  obtain ⟨rest, split⟩ := List.takeWhile_prefix Char.isDigit (l := cs)
  exact ⟨rest, split.symm, List.all_eq_true.mp List.all_takeWhile⟩

theorem FractionSpelled.length_eq {fraction text : List Char}
    (spelled : FractionSpelled fraction text) :
    text.length = Numeral.fractionLength fraction := by
  cases spelled with
  | absent => rfl
  | point digits => simp [Numeral.fractionLength, digits.nonempty, Nat.add_comm]

namespace PowerSpelled

variable {power : Option Power} {text : List Char}

theorem length_eq (spelled : PowerSpelled power text) :
    text.length = (power.map Power.length).getD 0 := by
  cases spelled with
  | absent => rfl
  | @marked _ sign _ => cases sign <;> simp [Power.length, PowerSign.text] <;> omega

theorem head (spelled : PowerSpelled power text) : ∀ c ∈ text.head?, c = 'e' ∨ c = 'E' := by
  cases spelled with
  | absent => nofun
  | marked mark => simpa using mark

end PowerSpelled

theorem exists_fractionSpelled (cs : List Char) :
    ∃ text rest, cs = text ++ rest ∧ FractionSpelled (fractionRun cs) text := by
  by_cases present : fractionRun cs = []
  · exact ⟨[], cs, rfl, by rw [present]; exact .absent⟩
  · cases cs with
    | nil => exact absurd rfl present
    | cons c ds =>
        by_cases point : c = '.'
        · subst point
          obtain ⟨rest, split, digits⟩ := exists_digitRun ds
          exact ⟨'.' :: digitRun ds, rest, congrArg _ split, .point ⟨present, digits⟩⟩
        · exact absurd (by simp [fractionRun, point]) present

theorem fractionRun_append {fraction text rest : List Char}
    (spelled : FractionSpelled fraction text)
    (stopped : ∀ c ∈ rest.head?, c.isDigit = false ∧ c ≠ '.') :
    fractionRun (text ++ rest) = fraction := by
  cases spelled with
  | absent =>
      cases rest with
      | nil => rfl
      | cons c rest => simp [fractionRun, (stopped c rfl).2]
  | point digits => exact digitRun_append digits.digits fun c first => (stopped c first).1

namespace Power

theorem exists_powerSpelled (cs : List Char) :
    ∃ text rest, cs = text ++ rest ∧ PowerSpelled (read? cs) text := by
  cases read : read? cs with
  | none => exact ⟨[], cs, rfl, .absent⟩
  | some power =>
      match cs, read with
      | [mark], read => simp [read?, ofSigned?, digitRun] at read
      | mark :: c :: cs, read =>
          by_cases marked : mark = 'e' ∨ mark = 'E'
          · obtain ⟨sign, ds, split, signed⟩ := exists_signed marked c cs
            obtain ⟨rest, behind, digits⟩ := exists_digitRun ds
            have found := signed []
            rw [List.append_nil, List.append_nil, read, ofSigned?] at found
            split at found
            · cases found
            · rename_i some
              cases found
              refine ⟨mark :: (sign.text ++ digitRun ds), rest, ?_, .marked marked ⟨some, digits⟩⟩
              rw [List.cons_append, List.append_assoc, ← behind, ← split]
          · simp [read?, marked] at read

theorem read?_of_spelled {power : Option Power} {text : List Char}
    (spelled : PowerSpelled power text) : read? text = power := by
  cases spelled with
  | absent => rfl
  | @marked mark sign ds marked digits =>
      have run : digitRun ds = ds := List.takeWhile_eq_self_iff.mpr digits.digits
      have signed : ofSigned? sign ds = some ⟨sign, ds⟩ := by simp [ofSigned?, run, digits.nonempty]
      rw [← signed]
      cases sign with
      | plus => simp [read?, marked, PowerSign.text]
      | minus => simp [read?, marked, PowerSign.text]
      | absent =>
          obtain ⟨d, es, rfl⟩ := List.exists_cons_of_ne_nil digits.nonempty
          have digit := digits.digits d (by simp)
          have plus : d ≠ '+' := ne_of_isDigit digit rfl
          have minus : d ≠ '-' := ne_of_isDigit digit rfl
          simp [read?, marked, PowerSign.text, plus, minus]

end Power

namespace Numeral

variable {n : Numeral} {cs text : List Char}

theorem Spelled.length_eq (spelled : n.Spelled text) : text.length = n.length := by
  cases spelled with
  | @parts negative _ _ _ _ _ _ fraction power =>
      have point := fraction.length_eq
      have tail := power.length_eq
      cases negative <;> simp [length, signText, point, tail] <;> omega

private theorem drop_of_eq_append {as bs cs : List Char} (split : cs = as ++ bs) :
    cs.drop as.length = bs := by
  rw [split, List.drop_left]

theorem Spelled.exists_of_integer (spelled : n.Spelled text) (integer : n.isReal = false) :
    ∃ negative ds, IsDigits ds ∧ n = ⟨negative, ds, [], none⟩ ∧ text = signText negative ++ ds := by
  cases spelled with
  | @parts negative whole _ _ _ _ digits fraction power =>
      cases fraction with
      | point some => simp [isReal, some.nonempty] at integer
      | absent =>
          cases power with
          | marked => cases integer
          | absent => exact ⟨negative, whole, digits, rfl, by simp⟩

theorem exists_spelled_of_readUnsigned? {negative : Bool}
    (read : readUnsigned? negative cs = some n) :
    ∃ text rest, cs = text ++ rest ∧ n.Spelled (signText negative ++ text) := by
  rw [readUnsigned?_eq] at read
  split at read
  · cases read
  · rename_i some
    -- The three parts come off one after the other, each as long as its text.
    obtain ⟨afterWhole, wholeSplit, digits⟩ := exists_digitRun cs
    obtain ⟨point, afterPoint, pointSplit, fraction⟩ := exists_fractionSpelled afterWhole
    obtain ⟨tail, rest, tailSplit, power⟩ := Power.exists_powerSpelled afterPoint
    simp only [drop_of_eq_append wholeSplit, ← fraction.length_eq,
      drop_of_eq_append pointSplit] at read
    cases read
    refine ⟨digitRun cs ++ (point ++ tail), rest, ?_, .parts ⟨some, digits⟩ fraction power⟩
    rw [List.append_assoc, List.append_assoc, ← tailSplit, ← pointSplit, ← wholeSplit]

theorem exists_spelled_of_read? (read : read? cs = some n) :
    ∃ text rest, cs = text ++ rest ∧ n.Spelled text := by
  unfold read? at read
  split at read
  · obtain ⟨text, rest, rfl, spelled⟩ := exists_spelled_of_readUnsigned? read
    exact ⟨'-' :: text, rest, rfl, spelled⟩
  · exact exists_spelled_of_readUnsigned? read

theorem read?_of_isDigit {c : Char} (digit : c.isDigit = true) (cs : List Char) :
    read? (c :: cs) = readUnsigned? false (c :: cs) := by
  have sign : c ≠ '-' := ne_of_isDigit digit rfl
  simp [read?, sign]

theorem exists_read?_of_isDigit {c : Char} (digit : c.isDigit = true) (cs : List Char) :
    ∃ n, read? (c :: cs) = some n := by
  have digits : digitRun (c :: cs) ≠ [] := by simp [digitRun, digit]
  rw [read?_of_isDigit digit, readUnsigned?_eq, if_neg digits]
  exact ⟨_, rfl⟩

theorem Spelled.read?_eq (spelled : n.Spelled text) : read? text = some n := by
  cases spelled with
  | @parts negative whole fraction point tail power digits pointed powered =>
      -- Each part is read to its end: the next one starts with a point or a letter, not a digit.
      have marked : ∀ c ∈ tail.head?, c.isDigit = false ∧ c ≠ '.' := by
        intro c first
        rcases powered.head c first with rfl | rfl <;> decide
      have behind : ∀ c ∈ (point ++ tail).head?, c.isDigit = false := by
        cases pointed with
        | absent => exact fun c first => (marked c first).1
        | point => rintro c ⟨⟩; rfl
      have unsigned : readUnsigned? negative (whole ++ (point ++ tail)) =
          some ⟨negative, whole, fraction, power⟩ := by
        rw [readUnsigned?_eq, digitRun_append digits.digits behind, if_neg digits.nonempty]
        simp only [List.drop_left, fractionRun_append pointed marked, ← pointed.length_eq,
          Power.read?_of_spelled powered]
      cases negative with
      | true => exact unsigned
      | false =>
          obtain ⟨d, ds, rfl⟩ := List.exists_cons_of_ne_nil digits.nonempty
          exact (read?_of_isDigit (digits.digits d (by simp)) _).trans unsigned

theorem spelled_iff : n.Spelled text ↔ read? text = some n ∧ n.length = text.length := by
  constructor
  · exact fun spelled => ⟨spelled.read?_eq, spelled.length_eq.symm⟩
  · rintro ⟨read, whole⟩
    obtain ⟨part, rest, rfl, spelled⟩ := exists_spelled_of_read? read
    have nothing : rest = [] := by
      have part := spelled.length_eq
      rw [List.length_append] at whole
      exact List.length_eq_zero_iff.mp (by omega)
    rwa [nothing, List.append_nil]

/-- What is read is the longest numeral at the head of a source. -/
theorem length_le_of_spelled {m : Numeral} {rest : List Char} (read : read? (text ++ rest) = some n)
    (spelled : m.Spelled text) : text.length ≤ n.length := by
  by_contra longer
  have same := read?_of_append read (by omega)
  rw [spelled.read?_eq] at same
  cases same
  exact longer (by rw [spelled.length_eq])

end Numeral

namespace Piece

theorem next_of_isDigit {c : Char} {cs : List Char} (digit : c.isDigit = true) {n : Numeral}
    (read : Numeral.read? (c :: cs) = some n) : next c cs = ofNumeral n := by
  have differs (d : Char) (other : d.isDigit = false) : c ≠ d := ne_of_isDigit digit other
  have black : isBlank c = false := by
    simp [isBlank, differs]
  simp [next, black, differs, digit, read]

theorem ofRun_of_spelled {n : Numeral} {run : List Char} (spelled : n.Spelled run) :
    ofRun run = ofNumeral n := by
  simp [ofRun, spelled.read?_eq, spelled.length_eq]

end Piece

section Patterns

open RegularExpression

def oneOf : List Char → RegularExpression Char
  | [] => 0
  | c :: cs => char c + oneOf cs

def optional (p : RegularExpression Char) : RegularExpression Char := 1 + p

/-- `[0-9]+` -/
def digitsPattern : RegularExpression Char :=
  oneOf "0123456789".toList * (oneOf "0123456789".toList).star

/-- `-?[0-9]+` -/
def integerPattern : RegularExpression Char := optional (char '-') * digitsPattern

/-- `\.[0-9]+` -/
def fractionPattern : RegularExpression Char := char '.' * digitsPattern

/-- `[eE][+-]?[0-9]+` -/
def powerPattern : RegularExpression Char :=
  oneOf ['e', 'E'] * (optional (oneOf ['+', '-']) * digitsPattern)

/-- `-?[0-9]+\.[0-9]+([eE][+-]?[0-9]+)?|-?[0-9]+[eE][+-]?[0-9]+` -/
def realPattern : RegularExpression Char :=
  integerPattern * (fractionPattern * optional powerPattern) + integerPattern * powerPattern

variable {text : List Char}

theorem mem_char {c : Char} : text ∈ (char c).matches' ↔ text = [c] := Set.mem_singleton_iff

theorem mem_mul {p q : RegularExpression Char} :
    text ∈ (p * q).matches' ↔ ∃ as ∈ p.matches', ∃ bs ∈ q.matches', as ++ bs = text :=
  Language.mem_mul

theorem mem_optional {p : RegularExpression Char} :
    text ∈ (optional p).matches' ↔ text = [] ∨ text ∈ p.matches' := by
  simp [optional, Language.mem_add, Language.mem_one]

theorem mem_oneOf {cs : List Char} : text ∈ (oneOf cs).matches' ↔ ∃ c ∈ cs, text = [c] := by
  induction cs with
  | nil => simp [oneOf]
  | cons c cs ih =>
      rw [oneOf, matches'_add, Language.mem_add, mem_char, ih, List.exists_mem_cons_iff]

/-- A pattern that matches single characters of a class matches, repeated, the texts made of it. -/
theorem mem_kstar_of_single {l : Language Char} {p : Char → Prop}
    (single : ∀ {text : List Char}, text ∈ l ↔ ∃ c, p c ∧ text = [c]) :
    text ∈ KStar.kstar l ↔ ∀ c ∈ text, p c := by
  rw [Language.mem_kstar]
  constructor
  · rintro ⟨parts, rfl, each⟩ c member
    obtain ⟨part, listed, inside⟩ := List.mem_flatten.mp member
    obtain ⟨d, found, rfl⟩ := single.mp (each part listed)
    exact List.mem_singleton.mp inside ▸ found
  · intro each
    refine ⟨text.map fun c => [c], (List.flatMap_singleton' text).symm, fun part listed => ?_⟩
    obtain ⟨c, member, rfl⟩ := List.mem_map.mp listed
    exact single.mpr ⟨c, each c member, rfl⟩

theorem mem_star_oneOf {cs : List Char} :
    text ∈ (oneOf cs).star.matches' ↔ ∀ c ∈ text, c ∈ cs := by
  rw [matches'_star]
  exact mem_kstar_of_single mem_oneOf

/-- What holds of all characters of a list is settled by a look at each of them. -/
theorem forall_mem_of_all {cs : List Char} {p : Char → Prop} [DecidablePred p]
    (each : cs.all (fun c => decide (p c)) = true) : ∀ c ∈ cs, p c := by
  simpa using each

/-- A class of ASCII characters is settled by a look at each of them. -/
theorem mem_iff_of_ascii {cs : List Char} {p : Char → Bool}
    (small : ∀ c, p c = true → c.toNat < 128) (listed : cs.all p = true)
    (each : ∀ n < 128, p (Char.ofNat n) = true → Char.ofNat n ∈ cs) (c : Char) :
    c ∈ cs ↔ p c = true := by
  refine ⟨List.all_eq_true.mp listed c, fun holds => ?_⟩
  have member := each c.toNat (small c holds)
  rw [Char.ofNat_toNat] at member
  exact member holds

theorem mem_digits_iff (c : Char) : c ∈ "0123456789".toList ↔ c.isDigit = true := by
  refine mem_iff_of_ascii (fun c digit => ?_) (by decide) (by decide) c
  have range : 48 ≤ c.toNat ∧ c.toNat ≤ 57 := Char.isDigit_iff_toNat.mp digit
  omega

theorem mem_digitsPattern : text ∈ digitsPattern.matches' ↔ IsDigits text := by
  simp only [digitsPattern, mem_mul, mem_oneOf, mem_star_oneOf, mem_digits_iff]
  constructor
  · rintro ⟨_, ⟨c, digit, rfl⟩, ds, digits, rfl⟩
    exact ⟨by simp, List.forall_mem_cons.mpr ⟨digit, digits⟩⟩
  · rintro ⟨nonempty, digits⟩
    obtain ⟨c, ds, rfl⟩ := List.exists_cons_of_ne_nil nonempty
    obtain ⟨digit, later⟩ := List.forall_mem_cons.mp digits
    exact ⟨[c], ⟨c, digit, rfl⟩, ds, later, rfl⟩

theorem mem_integerPattern :
    text ∈ integerPattern.matches' ↔
      ∃ (negative : Bool) (ds : List Char), IsDigits ds ∧ text = signText negative ++ ds := by
  simp only [integerPattern, mem_mul, mem_optional, mem_char, mem_digitsPattern]
  constructor
  · rintro ⟨_, rfl | rfl, ds, digits, rfl⟩
    · exact ⟨false, ds, digits, rfl⟩
    · exact ⟨true, ds, digits, rfl⟩
  · rintro ⟨negative, ds, digits, rfl⟩
    cases negative with
    | false => exact ⟨[], .inl rfl, ds, digits, rfl⟩
    | true => exact ⟨['-'], .inr rfl, ds, digits, rfl⟩

theorem mem_fractionPattern :
    text ∈ fractionPattern.matches' ↔ ∃ ds, IsDigits ds ∧ text = '.' :: ds := by
  simp only [fractionPattern, mem_mul, mem_char, mem_digitsPattern]
  constructor
  · rintro ⟨_, rfl, ds, digits, rfl⟩
    exact ⟨ds, digits, rfl⟩
  · rintro ⟨ds, digits, rfl⟩
    exact ⟨_, rfl, ds, digits, rfl⟩

theorem mem_powerPattern :
    text ∈ powerPattern.matches' ↔ ∃ power, PowerSpelled (some power) text := by
  simp only [powerPattern, mem_mul, mem_optional, mem_oneOf, mem_digitsPattern]
  constructor
  · rintro ⟨_, ⟨mark, marked, rfl⟩, _, ⟨_, signed, ds, digits, rfl⟩, rfl⟩
    have letter : mark = 'e' ∨ mark = 'E' := by simpa using marked
    rcases signed with rfl | ⟨c, sign, rfl⟩
    · exact ⟨⟨.absent, ds⟩, .marked letter digits⟩
    · rcases List.mem_pair.mp sign with rfl | rfl
      · exact ⟨⟨.plus, ds⟩, .marked letter digits⟩
      · exact ⟨⟨.minus, ds⟩, .marked letter digits⟩
  · rintro ⟨_, spelled⟩
    cases spelled with
    | @marked mark sign ds letter digits =>
        refine ⟨[mark], ⟨mark, by simpa using letter, rfl⟩, _,
          ⟨sign.text, ?_, ds, digits, rfl⟩, rfl⟩
        cases sign with
        | absent => exact .inl rfl
        | plus => exact .inr ⟨'+', by simp, rfl⟩
        | minus => exact .inr ⟨'-', by simp, rfl⟩

theorem mem_optional_powerPattern :
    text ∈ (optional powerPattern).matches' ↔ ∃ power, PowerSpelled power text := by
  rw [mem_optional, mem_powerPattern]
  constructor
  · rintro (rfl | ⟨power, spelled⟩)
    · exact ⟨none, .absent⟩
    · exact ⟨some power, spelled⟩
  · rintro ⟨power | power, spelled⟩
    · cases spelled
      exact .inl rfl
    · exact .inr ⟨power, spelled⟩

theorem mem_integerPattern_iff :
    text ∈ integerPattern.matches' ↔ ∃ n : Numeral, n.Spelled text ∧ n.isReal = false := by
  rw [mem_integerPattern]
  constructor
  · rintro ⟨negative, ds, digits, rfl⟩
    exact ⟨_, digits.spelled negative, rfl⟩
  · rintro ⟨_, spelled, integer⟩
    obtain ⟨negative, ds, digits, -, rfl⟩ := spelled.exists_of_integer integer
    exact ⟨negative, ds, digits, rfl⟩

theorem mem_realPattern_iff :
    text ∈ realPattern.matches' ↔ ∃ n : Numeral, n.Spelled text ∧ n.isReal = true := by
  simp only [realPattern, matches'_add, Language.mem_add, mem_mul, mem_integerPattern,
    mem_fractionPattern, mem_optional_powerPattern, mem_powerPattern]
  constructor
  · rintro (⟨_, ⟨negative, whole, digits, rfl⟩, _, ⟨_, ⟨ds, some, rfl⟩, tail, ⟨power, powered⟩,
      rfl⟩, rfl⟩ | ⟨_, ⟨negative, whole, digits, rfl⟩, tail, ⟨power, powered⟩, rfl⟩)
    · refine ⟨⟨negative, whole, ds, power⟩, ?_, by simp [Numeral.isReal, some.nonempty]⟩
      rw [List.append_assoc]
      exact .parts digits (.point some) powered
    · refine ⟨⟨negative, whole, [], power⟩, ?_, rfl⟩
      rw [List.append_assoc]
      exact .parts digits .absent powered
  · rintro ⟨_, spelled, real⟩
    cases spelled with
    | @parts negative whole _ _ tail power digits fraction powered =>
        rw [← List.append_assoc]
        cases fraction with
        | point some =>
            exact .inl ⟨_, ⟨negative, whole, digits, rfl⟩, _,
              ⟨_, ⟨_, some, rfl⟩, tail, ⟨power, powered⟩, rfl⟩, rfl⟩
        | absent =>
            cases power with
            | none => cases real
            | some power =>
                exact .inr ⟨_, ⟨negative, whole, digits, rfl⟩, tail, ⟨power, powered⟩, rfl⟩

section Numerals

variable {n : Numeral}

theorem Numeral.Spelled.unique {m : Numeral} (first : m.Spelled text) (second : n.Spelled text) :
    m = n := by
  have same := first.read?_eq
  rw [second.read?_eq] at same
  cases same
  rfl

theorem mem_realPattern_of_spelled (spelled : n.Spelled text) :
    text ∈ realPattern.matches' ↔ n.isReal = true := by
  rw [mem_realPattern_iff]
  constructor
  · rintro ⟨m, other, real⟩
    rwa [← other.unique spelled]
  · exact fun real => ⟨n, spelled, real⟩

theorem mem_integerPattern_of_spelled (spelled : n.Spelled text) :
    text ∈ integerPattern.matches' ↔ n.isReal = false := by
  rw [mem_integerPattern_iff]
  constructor
  · rintro ⟨m, other, integer⟩
    rwa [← other.unique spelled]
  · exact fun integer => ⟨n, spelled, integer⟩

theorem mem_patterns_iff :
    text ∈ realPattern.matches' ∨ text ∈ integerPattern.matches' ↔
      ∃ n : Numeral, n.Spelled text := by
  rw [mem_realPattern_iff, mem_integerPattern_iff]
  constructor
  · rintro (⟨n, spelled, -⟩ | ⟨n, spelled, -⟩) <;> exact ⟨n, spelled⟩
  · rintro ⟨n, spelled⟩
    cases kind : n.isReal with
    | true => exact .inl ⟨n, spelled, kind⟩
    | false => exact .inr ⟨n, spelled, kind⟩

end Numerals

end Patterns

def naturalValue (ds : List Char) : Nat :=
  Nat.ofDigits 10 (ds.reverse.map fun c => c.toNat - '0'.toNat)

/-- The integer that decimal digits stand for, with a sign in front or none. -/
def decimalValue : List Char → Int
  | '-' :: ds => -(naturalValue ds : Int)
  | ds => naturalValue ds

theorem digitsValue_eq_naturalValue (ds : List Char) : digitsValue ds = naturalValue ds := by
  -- On the digits from the last: it is the one that counts least.
  induction ds using List.reverseRecOn with
  | nil => rfl
  | append_singleton ds c ih =>
      calc digitsValue (ds ++ [c])
        _ = 10 * digitsValue ds + (c.toNat - 48) := List.foldl_concat ..
        _ = c.toNat - 48 + 10 * naturalValue ds := by rw [ih, Nat.add_comm]
        _ = naturalValue (ds ++ [c]) := by
            rw [naturalValue, naturalValue, List.reverse_concat, List.map_cons, Nat.ofDigits_cons]
            rfl

theorem Numeral.Spelled.decimalValue_eq {n : Numeral} {text : List Char} (spelled : n.Spelled text)
    (integer : n.isReal = false) : decimalValue text = n.intValue := by
  obtain ⟨negative, ds, digits, rfl, rfl⟩ := spelled.exists_of_integer integer
  cases negative with
  | true => rw [intValue, if_pos rfl, digitsValue_eq_naturalValue]; rfl
  | false =>
      obtain ⟨d, ds, rfl⟩ := List.exists_cons_of_ne_nil digits.nonempty
      have sign : d ≠ '-' := ne_of_isDigit (digits.digits d (by simp)) rfl
      simp [decimalValue, intValue, signText, sign, digitsValue_eq_naturalValue]

end Stacklet.Lexeme
