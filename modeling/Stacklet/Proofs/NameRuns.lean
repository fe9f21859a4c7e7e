import Stacklet.Proofs.IntegerArithmetic
import Stacklet.Proofs.SourceJoin
import Stacklet.Proofs.SourceTiling

set_option autoImplicit false
set_option relaxedAutoImplicit false

/-!
How runs of name characters split. A run that starts like a name stays whole and is a number if a
pattern of numbers matches all of it. One that starts with a digit is cut behind the longest prefix
that such a pattern matches, and the rest is a run of its own.
-/

namespace Stacklet

open SourceError (relocate)

namespace Lexeme

/-- What a text in one piece is taken for: a number if a pattern of numbers matches it, and a name
otherwise. An integer has its decimal value and is refused if 64 bits do not hold that. -/
structure Recognized (text : List Char) (found : Except SourceFault Lexeme) : Prop where
  real : (∃ x, found = .ok (.real x)) ↔ text ∈ realPattern.matches'
  int : (∃ k, found = .ok (.int k) ∧ k.toInt = decimalValue text) ↔
    text ∈ integerPattern.matches' ∧ Number.Fits (decimalValue text)
  outOfRange : found = .error (.integerOutOfRange (String.ofList text)) ↔
    text ∈ integerPattern.matches' ∧ ¬ Number.Fits (decimalValue text)
  name : found = .ok (.name (String.ofList text)) ↔
    text ∉ realPattern.matches' ∧ text ∉ integerPattern.matches'

structure LongestNumeral (text run : List Char) : Prop where
  initial : text <+: run
  numeral : text ∈ realPattern.matches' ∨ text ∈ integerPattern.matches'
  longest : ∀ other, other <+: run →
    other ∈ realPattern.matches' ∨ other ∈ integerPattern.matches' → other.length ≤ text.length

/-- What a scan finds that takes the head of a source for one lexeme, with what stands behind it
scanned as if it stood alone; or the fault of the head, at the head. -/
def followedBy (found : Except SourceFault Lexeme) (span : Span) :
    Except SourceError (List (Lexeme × Span)) → Except SourceError (List (Lexeme × Span)) :=
  match found with
  | .ok l => relocate span.stop ((l, span) :: shiftAll span.stop ·)
  | .error fault => fun _ => .error ⟨fault, span⟩

def Numeral.verdict (n : Numeral) (text : List Char) : Except SourceFault Lexeme :=
  if n.isReal then .ok (.real n.realValue)
  else
    match Number.narrow? n.intValue with
    | some k => .ok (.int k)
    | none => .error (.integerOutOfRange (String.ofList text))

section Recognition

variable {n : Numeral} {text : List Char}

theorem recognized_verdict (spelled : n.Spelled text) : Recognized text (n.verdict text) := by
  have real := mem_realPattern_of_spelled spelled
  have integer := mem_integerPattern_of_spelled spelled
  cases kind : n.isReal with
  | true =>
      have verdict : n.verdict text = .ok (.real n.realValue) := by simp [Numeral.verdict, kind]
      rw [verdict]
      constructor <;> simp [real, integer, kind]
  | false =>
      have value := spelled.decimalValue_eq kind
      cases narrowed : Number.narrow? n.intValue with
      | some k =>
          have verdict : n.verdict text = .ok (.int k) := by simp [Numeral.verdict, kind, narrowed]
          have exact := Number.narrow?_eq_some_iff.mp narrowed
          have fits := Number.fits_toInt k
          rw [verdict]
          constructor <;> simp [real, integer, kind, value, ← exact, fits]
      | none =>
          have verdict : n.verdict text = .error (.integerOutOfRange (String.ofList text)) := by
            simp [Numeral.verdict, kind, narrowed]
          have beyond := Number.narrow?_eq_none_iff.mp narrowed
          rw [verdict]
          constructor <;> simp [real, integer, kind, value, beyond]

theorem recognized_name (none : ∀ n : Numeral, ¬ n.Spelled text) :
    Recognized text (.ok (.name (String.ofList text))) := by
  have unmatched := mem_patterns_iff.not.mpr (not_exists.mpr none)
  rw [not_or] at unmatched
  constructor <;> simp [unmatched]

end Recognition

section Scanning

variable {c : Char} {cs rest : List Char}

theorem scan_of_lexeme {l : Lexeme}
    (piece : Piece.next c (cs ++ rest) = .lexeme l (cs.length + 1)) :
    scan (String.ofList (c :: cs ++ rest)) =
      followedBy (.ok l) ⟨0, byteLength (c :: cs)⟩ (scan (String.ofList rest)) := by
  rw [scan, String.toList_ofList, scanFrom_of_lexeme piece, scan, String.toList_ofList]
  have shifted :=
    scanFrom_shift (byteLength (c :: cs)) [(l, ⟨0, byteLength (c :: cs)⟩)] [] 0 0 rest
  rw [Nat.zero_add] at shifted ⊢
  exact shifted

theorem scan_of_tooLarge (piece : Piece.next c (cs ++ rest) = .tooLarge (cs.length + 1)) :
    scan (String.ofList (c :: cs ++ rest)) =
      .error ⟨.integerOutOfRange (String.ofList (c :: cs)), ⟨0, byteLength (c :: cs)⟩⟩ := by
  have head : (c :: (cs ++ rest)).take (cs.length + 1) = c :: cs := by
    rw [List.take_succ_cons, List.take_left]
  rw [scan, String.toList_ofList, List.cons_append, scanFrom, piece]
  simp only [spanOf, head, Nat.zero_add]

theorem scan_of_numeral {n : Numeral} (piece : Piece.next c (cs ++ rest) = Piece.ofNumeral n)
    (whole : n.length = cs.length + 1) :
    scan (String.ofList (c :: cs ++ rest)) =
      followedBy (n.verdict (c :: cs)) ⟨0, byteLength (c :: cs)⟩ (scan (String.ofList rest)) := by
  cases kind : n.isReal with
  | true =>
      rw [Piece.ofNumeral, if_pos kind, whole] at piece
      rw [Numeral.verdict, if_pos kind]
      exact scan_of_lexeme piece
  | false =>
      cases narrowed : Number.narrow? n.intValue with
      | some k =>
          simp only [Piece.ofNumeral, kind, narrowed, whole] at piece
          simp only [Numeral.verdict, kind, narrowed]
          exact scan_of_lexeme piece
      | none =>
          simp only [Piece.ofNumeral, kind, narrowed, whole] at piece
          simp only [Numeral.verdict, kind, narrowed]
          exact scan_of_tooLarge piece

theorem exists_recognized_of_run (start : isNameStart c = true) (digit : c.isDigit = false)
    (named : ∀ d ∈ cs, isNameChar d = true) :
    ∃ found, Recognized (c :: cs) found ∧
      scan (String.ofList (c :: cs)) = followedBy found ⟨0, byteLength (c :: cs)⟩ (.ok []) := by
  have run : Piece.next c (cs ++ []) = Piece.ofRun (c :: cs) := by
    rw [List.append_nil, Piece.next_of_isNameStart start digit,
      List.takeWhile_eq_self_iff.mpr named]
  by_cases numeral : ∃ n : Numeral, n.Spelled (c :: cs)
  · obtain ⟨n, spelled⟩ := numeral
    rw [Piece.ofRun_of_spelled spelled] at run
    have scanned := scan_of_numeral run spelled.length_eq.symm
    rw [List.append_nil] at scanned
    exact ⟨_, recognized_verdict spelled, scanned⟩
  · rw [not_exists] at numeral
    rw [Piece.ofRun_of_unspelled numeral] at run
    have scanned := scan_of_lexeme run
    rw [List.append_nil] at scanned
    exact ⟨_, recognized_name numeral, scanned⟩

theorem scan_definition (start : isNameStart c = true) (named : ∀ d ∈ cs, isNameChar d = true) :
    scan (String.ofList ('/' :: c :: cs)) =
      .ok [(.define (String.ofList (c :: cs)), ⟨0, byteLength ('/' :: c :: cs)⟩)] := by
  have run : (c :: cs).takeWhile isNameChar = c :: cs := by
    refine List.takeWhile_eq_self_iff.mpr (List.forall_mem_cons.mpr ⟨?_, named⟩)
    simp [isNameChar, start]
  have piece : Piece.next '/' (c :: cs ++ []) =
      .lexeme (.define (String.ofList (c :: cs))) ((c :: cs).length + 1) := by
    rw [List.append_nil]
    have sign : Piece.next '/' (c :: cs) = Piece.ofDefinition (c :: cs) := rfl
    simp [sign, Piece.ofDefinition, run, start]
  exact scan_of_next piece

/-- A source that starts with a digit is cut behind its longest numeral. -/
theorem exists_longestNumeral (digit : c.isDigit = true) (cs : List Char) :
    ∃ text rest found, c :: cs = text ++ rest ∧ LongestNumeral text (c :: cs) ∧
      Recognized text found ∧
      scan (String.ofList (c :: cs)) =
        followedBy found ⟨0, byteLength text⟩ (scan (String.ofList rest)) := by
  obtain ⟨n, read⟩ := Numeral.exists_read?_of_isDigit digit cs
  obtain ⟨text, rest, split, spelled⟩ := Numeral.exists_spelled_of_read? read
  refine ⟨text, rest, n.verdict text, split, ?_, recognized_verdict spelled, ?_⟩
  · refine ⟨⟨rest, split.symm⟩, mem_patterns_iff.mpr ⟨n, spelled⟩, ?_⟩
    rintro other ⟨behind, whole⟩ matched
    obtain ⟨m, written⟩ := mem_patterns_iff.mp matched
    rw [← whole] at read
    rw [spelled.length_eq]
    exact Numeral.length_le_of_spelled read written
  · have piece := Piece.next_of_isDigit digit read
    have positive := Numeral.length_pos_of_read? read
    cases text with
    | nil => rw [← spelled.length_eq] at positive; cases positive
    | cons d text =>
        obtain ⟨rfl, rfl⟩ : c = d ∧ cs = text ++ rest := by simpa using split
        exact scan_of_numeral piece spelled.length_eq.symm

end Scanning

/-- How a run of name characters splits. If it starts with no digit it is one lexeme: a real if the
real pattern matches it, an integer if the integer pattern does, and else a name; with a definition
sign in front it is the definition of that name. If it starts with a digit, its first lexeme is the
longest prefix that one of the patterns matches, and the rest is scanned as if it stood alone. An
integer has its exact value, and if 64 bits do not hold that the scan fails at that integer. -/
theorem name_run_splits (r : String) (nonempty : r ≠ "")
    (named : ∀ c ∈ r.toList, c ∈ nameCharacters) :
    (r.toList.head?.any Char.isDigit = false →
      (∃ found, Recognized r.toList found ∧
        scan r = followedBy found ⟨0, r.utf8ByteSize⟩ (.ok [])) ∧
      scan ("/" ++ r) = .ok [(.define r, ⟨0, ("/" ++ r).utf8ByteSize⟩)]) ∧
    (r.toList.head?.any Char.isDigit = true →
      ∃ p q found, r = p ++ q ∧ LongestNumeral p.toList r.toList ∧ Recognized p.toList found ∧
        scan r = followedBy found ⟨0, p.utf8ByteSize⟩ (scan q)) := by
  obtain ⟨c, cs, rfl⟩ : ∃ c cs, r = String.ofList (c :: cs) := by
    obtain ⟨c, cs, characters⟩ :=
      List.exists_cons_of_ne_nil (mt String.toList_eq_nil_iff.mp nonempty)
    exact ⟨c, cs, by rw [← characters, String.ofList_toList]⟩
  simp only [mem_nameCharacters_iff, String.toList_ofList, List.forall_mem_cons] at named
  simp only [String.toList_ofList, List.head?_cons, Option.any_some, ← byteLength_toList]
  constructor
  · intro digit
    have start : isNameStart c = true := by simpa [isNameChar, digit] using named.1
    have sign : "/" ++ String.ofList (c :: cs) = String.ofList ('/' :: c :: cs) := by simp
    refine ⟨exists_recognized_of_run start digit named.2, ?_⟩
    rw [sign, String.toList_ofList]
    exact scan_definition start named.2
  · intro digit
    obtain ⟨text, rest, found, split, longest, recognized, scanned⟩ :=
      exists_longestNumeral digit cs
    refine ⟨String.ofList text, String.ofList rest, found, ?_, ?_, ?_, ?_⟩
    · rw [split, String.ofList_append]
    all_goals rwa [String.toList_ofList]

/-- An integer with leading zeros whose value is the first beyond 64 bits is refused. A power of ten
without digits is no part of the real in front of it, and a name by itself. -/
theorem name_run_splits_mixed :
    scan "-009223372036854775809" =
        .error ⟨.integerOutOfRange "-009223372036854775809", ⟨0, 22⟩⟩ ∧
      scan "/-009223372036854775809" = .ok [(.define "-009223372036854775809", ⟨0, 23⟩)] ∧
      (∃ x, scan "1.5e+.2" = .ok [(.real x, ⟨0, 3⟩), (.name "e+.2", ⟨3, 7⟩)]) ∧
      ∃ p q found, "1.5e+.2" = p ++ q ∧ 3 ≤ p.toList.length ∧ Recognized p.toList found ∧
        scan "1.5e+.2" = followedBy found ⟨0, p.utf8ByteSize⟩ (scan q) := by
  have named (r : String) (each : r.toList.all isNameChar = true) :
      ∀ c ∈ r.toList, c ∈ nameCharacters := by
    simpa only [mem_nameCharacters_iff] using List.all_eq_true.mp each
  obtain ⟨whole, -⟩ := name_run_splits "-009223372036854775809" (by decide) (named _ (by decide))
  obtain ⟨-, cut⟩ := name_run_splits "1.5e+.2" (by decide) (named _ (by decide))
  obtain ⟨⟨found, recognized, scanned⟩, defined⟩ := whole rfl
  obtain ⟨p, q, first, split, longest, taken, rest⟩ := cut rfl
  have integer : "-009223372036854775809".toList ∈ integerPattern.matches' :=
    mem_integerPattern.mpr ⟨true, "009223372036854775809".toList,
      ⟨by decide, List.all_eq_true.mp (by decide)⟩, rfl⟩
  have beyond : ¬ Number.Fits (decimalValue "-009223372036854775809".toList) := by
    unfold Number.Fits
    decide
  rw [recognized.outOfRange.mpr ⟨integer, beyond⟩] at scanned
  refine ⟨scanned, defined, ⟨_, rfl⟩, p, q, first, split, ?_, taken, rest⟩
  have written : Numeral.Spelled ⟨false, ['1'], ['5'], none⟩ "1.5".toList :=
    .parts ⟨by decide, by simp⟩ (.point ⟨by decide, by simp⟩) .absent
  have real : "1.5".toList ∈ realPattern.matches' := mem_realPattern_iff.mpr ⟨_, written, rfl⟩
  exact longest.longest "1.5".toList (by decide) (.inl real)

end Lexeme

end Stacklet
