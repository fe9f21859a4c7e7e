import Stacklet.Proofs.NumeralPatterns
import Stacklet.Proofs.StoredCode
import Stacklet.Proofs.WrittenTexts

set_option autoImplicit false
set_option relaxedAutoImplicit false

/-!
Printed code reads back. The text of a word that a scan can find is scanned to the word, alone or
before a character that no name goes on with. Between the texts of two tokens stands a blank, and
around those in a bracket stand the brackets, so the text of a token is scanned to its lexemes.
-/

namespace Stacklet

namespace Token

inductive Occurs (t : Token) : List Token → Prop
  | here {ts : List Token} : t ∈ ts → Occurs t ts
  | inside {u : Token} {ts : List Token} : u ∈ ts → Occurs t u.parts → Occurs t ts

/-- Whether a token that is no bracket is printed as it is written: it is no real number and no
text with a parenthesis or a backslash in it. -/
def isVerbatim : Token → Bool
  | .number (.real _) => false
  | .text s => s.toList.all fun c => c != '(' && c != ')' && c != '\\'
  | _ => true

end Token

namespace Lexeme

def IsFound (l : Lexeme) : Prop := ∃ c cs, Piece.next c cs = .lexeme l (cs.length + 1)

theorem isFound_of_scan {source : String} {lexemes : List (Lexeme × Span)}
    (scanned : scan source = .ok lexemes) {l : Lexeme} (member : l ∈ lexemes.map Prod.fst) :
    l.IsFound := by
  obtain ⟨entry, found, rfl⟩ := List.mem_map.mp member
  have scans := (scan_eq_ok_iff source lexemes).mp scanned
  obtain ⟨_, c, cs, after, _, _, piece⟩ := scans.exists_of_mem found
  exact ⟨c, cs, Piece.next_of_append piece rfl (Nat.le_refl _)⟩

theorem digitsValue_toDigits (n : Nat) : digitsValue (Nat.toDigits 10 n) = n := by
  have inverse := Nat.ofDigitChars_ten_toDigits (n := n)
  rw [Nat.ofDigitChars_eq_foldl] at inverse
  exact inverse

private theorem isDigit_of_mem_toDigits {n : Nat} {c : Char} (member : c ∈ Nat.toDigits 10 n) :
    c.isDigit = true :=
  Nat.isDigit_of_mem_toDigits (by decide) (by decide) member

private theorem spelled_toDigits (negative : Bool) (n : Nat) :
    Numeral.Spelled ⟨negative, Nat.toDigits 10 n, [], none⟩
      (signText negative ++ Nat.toDigits 10 n) :=
  IsDigits.spelled ⟨Nat.toDigits_ne_nil, fun _ => isDigit_of_mem_toDigits⟩ negative

namespace Piece

variable {c : Char} {cs : List Char} {l : Lexeme}

theorem ofNumeral_toDigits {n : Nat} {negative : Bool} {k : Int64}
    (value : (if negative then -(n : Int) else n) = k.toInt) :
    ofNumeral ⟨negative, Nat.toDigits 10 n, [], none⟩ =
      .lexeme (.int k) ((if negative then 1 else 0) + (Nat.toDigits 10 n).length) := by
  have narrow : Number.narrow? k.toInt = some k := by
    have lower := k.le_toInt
    have upper := k.toInt_lt
    rw [Number.narrow?, if_pos ⟨lower, upper⟩, Int64.ofInt_toInt]
  simp [ofNumeral, Numeral.isReal, Numeral.intValue, digitsValue_toDigits, value, narrow,
    Numeral.length, Numeral.fractionLength]

theorem next_of_int (k : Int64) :
    ∃ c cs, (toString k.toInt).toList = c :: cs ∧ next c cs = .lexeme (.int k) (cs.length + 1) := by
  rw [Int.toString_eq_repr, Int.repr_eq_if]
  split
  · rename_i sign
    generalize size : k.toInt.toNat = n
    have value : (if false = true then -(n : Int) else n) = k.toInt := by
      rw [← size]
      exact Int.toNat_of_nonneg sign
    have spelled := spelled_toDigits false n
    have numeral := ofNumeral_toDigits value
    obtain ⟨c, cs, digits⟩ := List.exists_cons_of_ne_nil (Nat.toDigits_ne_nil (b := 10) (n := n))
    have digit : c.isDigit = true := isDigit_of_mem_toDigits (n := n) (by simp [digits])
    rw [digits] at spelled numeral
    refine ⟨c, cs, by rw [Nat.toList_repr, digits], ?_⟩
    rw [next_of_isDigit digit spelled.read?_eq, numeral]
    simp
  · rename_i sign
    generalize size : (-k.toInt).toNat = n
    have value : (if true = true then -(n : Int) else n) = k.toInt := by
      simp only [reduceIte]
      omega
    have run : (Nat.toDigits 10 n).takeWhile isNameChar = Nat.toDigits 10 n := by
      refine List.takeWhile_eq_self_iff.mpr ?_
      intro c member
      simp [isNameChar, isDigit_of_mem_toDigits member]
    refine ⟨'-', Nat.toDigits 10 n, by simp [Nat.toList_repr], ?_⟩
    have start : next '-' (Nat.toDigits 10 n) = ofRun (signText true ++ Nat.toDigits 10 n) := by
      conv_rhs => rw [← run]
      rfl
    rw [start, ofRun_of_spelled (spelled_toDigits true n), ofNumeral_toDigits value]
    simp [Nat.add_comm]

theorem next_of_text {s : String} (verbatim : (Token.text s).isVerbatim = true) :
    next '(' (s.toList ++ [')']) = .lexeme (.text s) (s.toList.length + 2) := by
  have plain : ∀ c ∈ s.toList, Delimiter.paren.isPlain c = true := by
    intro c member
    have apart := List.all_eq_true.mp verbatim c member
    simp only [Bool.and_eq_true, bne_iff_ne] at apart
    simp [Delimiter.isPlain, apart]
  have read := (Delimiter.writes_self plain).ofText_append_closing []
  rw [String.ofList_toList, ← Delimiter.next_opening] at read
  exact read

private theorem category_of_ofNumeral {n : Numeral} {k : Nat} (found : ofNumeral n = .lexeme l k) :
    l.category = .real ∨ l.category = .int := by
  unfold ofNumeral at found
  split at found
  · cases found
    exact .inl rfl
  · split at found <;> cases found
    exact .inr rfl

private theorem category_of_ofText {d : Delimiter} {k : Nat} (found : ofText d cs = .lexeme l k) :
    l.category = .text := by
  unfold ofText at found
  simp only at found
  split at found
  · split at found <;> cases found
    rfl
  · cases found

private theorem display_of_ofRun {run : List Char} {k : Nat}
    (named : l.category = .name ∨ l.category = .define) (found : ofRun run = .lexeme l k) :
    l.display.toList = run := by
  have word (same : lexeme (.name (String.ofList run)) run.length = .lexeme l k) :
      l.display.toList = run := by
    cases same
    exact String.toList_ofList
  unfold ofRun at found
  split at found
  · split at found
    · rcases category_of_ofNumeral found with real | int <;> simp [*] at named
    · exact word found
  · exact word found

theorem display_of_next (named : l.category = .name ∨ l.category = .define)
    (found : next c cs = .lexeme l (cs.length + 1)) : l.display.toList = c :: cs := by
  have begins := begins_next c
  generalize next c = piece at begins found
  cases begins with
  | blank | comment | other => cases found
  | bracket k sign =>
      obtain ⟨rfl, rfl⟩ : k = l ∧ cs = [] := by simpa using found
      simp only [brackets, List.mem_cons, Prod.mk.injEq, List.not_mem_nil, or_false] at sign
      rcases sign with ⟨_, rfl⟩ | ⟨_, rfl⟩ | ⟨_, rfl⟩ | ⟨_, rfl⟩ <;> simp [category] at named
  | text d => simp [category_of_ofText found] at named
  | definition sign =>
      unfold ofDefinition at found
      split at found
      · cases found
      · rename_i d run shape
        split at found
        · obtain ⟨rfl, length⟩ : .define (String.ofList (d :: run)) = l ∧
              run.length + 2 = cs.length + 1 := by simpa using found
          have whole : d :: run = cs := by
            rw [← shape]
            exact (List.takeWhile_prefix isNameChar).eq_of_length (by simp [shape]; omega)
          simp [display, whole, sign]
        · cases found
  | numeral =>
      simp only at found
      split at found
      · rcases category_of_ofNumeral found with real | int <;> simp [*] at named
      · cases found
  | run =>
      have length := length_ofRun (c :: cs.takeWhile isNameChar)
      simp only at found
      rw [found] at length
      have whole : cs.takeWhile isNameChar = cs :=
        (List.takeWhile_prefix isNameChar).eq_of_length (by simpa [Piece.length] using length.symm)
      simp only [whole] at found
      exact display_of_ofRun named found

/-- Before a character that no name goes on with, a lexeme is found as it is at the end. -/
theorem next_append_of_stopped {rest : List Char}
    (stopped : ∀ d ∈ rest.head?, isNameChar d = false)
    (found : next c cs = .lexeme l (cs.length + 1)) :
    next c (cs ++ rest) = .lexeme l (cs.length + 1) := by
  cases rest with
  | nil => rwa [List.append_nil]
  | cons stop rest => exact (next_append_stop (stopped stop rfl) found rest).1

theorem not_isBlank_of_next {n : Nat} (found : next c cs = .lexeme l n) : isBlank c = false := by
  cases white : isBlank c with
  | false => rfl
  | true =>
      rw [next_of_blank white] at found
      cases found

end Piece

theorem IsFound.exists_display {l : Lexeme} (found : l.IsFound) {t : Token}
    (word : l.token? = some t) (verbatim : t.isVerbatim = true) :
    ∃ c cs, t.display.toList = c :: cs ∧ Piece.next c cs = .lexeme l (cs.length + 1) := by
  obtain ⟨c, cs, piece⟩ := found
  cases l with
  | openBrace | closeBrace | openBracket | closeBracket => cases word
  | real x =>
      cases word
      cases verbatim
  | int n =>
      cases word
      exact Piece.next_of_int n
  | text s =>
      cases word
      exact ⟨'(', s.toList ++ [')'], by simp [Token.display], by
        simpa using Piece.next_of_text verbatim⟩
  | define name =>
      cases word
      have shown := Piece.display_of_next (.inr rfl) piece
      exact ⟨c, cs, shown, piece⟩
  | name name =>
      cases word
      have shown := Piece.display_of_next (.inl rfl) piece
      exact ⟨c, cs, shown, piece⟩

end Lexeme

namespace Token

open Lexeme

/-- What a scan makes of the text of a token: it starts with no blank, and before a character that
no name goes on with its lexemes are those of the token. -/
structure Prints (t : Token) : Prop where
  head : ∃ c cs, t.display.toList = c :: cs ∧ isBlank c = false
  scan : ∀ offset rest, (∀ c ∈ rest.head?, isNameChar c = false) →
    ∃ found, Scans offset t.display.toList found rest ∧ found.map Prod.fst = t.flatten

theorem prints_word {l : Lexeme} {t : Token} (word : l.token? = some t) (found : l.IsFound)
    (verbatim : t.isVerbatim = true) : t.Prints := by
  obtain ⟨c, cs, text, piece⟩ := found.exists_display word verbatim
  refine ⟨⟨c, cs, text, Piece.not_isBlank_of_next piece⟩, ?_⟩
  intro offset rest stopped
  have here : Piece.next c (cs ++ rest) = .lexeme l (cs.length + 1) :=
    Piece.next_append_of_stopped stopped piece
  refine ⟨[(l, ⟨offset, offset + byteLength (c :: cs)⟩)], ?_, ?_⟩
  · rw [text]
    exact .single here
  · rw [(flatten_of_token? word).1]
    rfl

theorem toList_displays_cons (t u : Token) (ts : List Token) :
    (" ".intercalate (displays (t :: u :: ts))).toList =
      t.display.toList ++ ' ' :: (" ".intercalate (displays (u :: ts))).toList := by
  simp [displays, String.toList_intercalate]

theorem Prints.head_displays {t : Token} (prints : t.Prints) (ts : List Token) :
    ∃ c cs, (" ".intercalate (displays (t :: ts))).toList = c :: cs ∧ isBlank c = false := by
  obtain ⟨c, cs, text, black⟩ := prints.head
  cases ts with
  | nil => exact ⟨c, cs, by simpa [displays] using text, black⟩
  | cons u us => exact ⟨c, _, by rw [toList_displays_cons, text, List.cons_append], black⟩

theorem exists_scans_displays {ts : List Token} (prints : ∀ t ∈ ts, t.Prints) (offset : Nat)
    {rest : List Char} (stopped : ∀ c ∈ rest.head?, isNameChar c = false) :
    ∃ found, Scans offset (" ".intercalate (displays ts)).toList found rest ∧
      found.map Prod.fst = flattenAll ts := by
  induction ts generalizing offset with
  | nil => exact ⟨[], .done, rfl⟩
  | cons t ts ih =>
      obtain ⟨here, later⟩ := List.forall_mem_cons.mp prints
      cases ts with
      | nil =>
          obtain ⟨found, scans, lexemes⟩ := here.scan offset rest stopped
          exact ⟨found, by simpa [displays] using scans, by simpa [flattenAll] using lexemes⟩
      | cons u us =>
          obtain ⟨c, cs, text, black⟩ := (later u (by simp)).head_displays us
          obtain ⟨second, right, flatAll⟩ :=
            ih later (offset + byteLength t.display.toList + byteLength [' '])
          rw [toList_displays_cons]
          rw [text] at right ⊢
          have behind : ∀ d ∈ (' ' :: c :: cs ++ rest).head?, isNameChar d = false := by
            rintro d ⟨⟩
            rfl
          obtain ⟨first, left, flat⟩ := here.scan offset (' ' :: c :: cs ++ rest) behind
          have blank : Piece.next ' ' ([] ++ (c :: cs ++ rest)) = .gap 1 := by
            rw [List.nil_append, Piece.next_of_blank rfl, List.cons_append,
              List.takeWhile_cons_of_neg (by simp [black])]
            rfl
          refine ⟨first ++ second, ?_, ?_⟩
          · exact left.append (.gap blank right)
          · rw [List.map_append, flat, flatAll]
            rfl

theorem display_token (b : Bracket) (body : List Token) :
    ∃ c d, (b.token body).display.toList =
        c :: (" ".intercalate (displays body)).toList ++ [d] ∧
      (∀ cs, Piece.next c cs = .lexeme b.opening 1) ∧
      (∀ cs, Piece.next d cs = .lexeme b.closing 1) ∧ isNameChar d = false := by
  cases b with
  | brace =>
      exact ⟨'\x7b', '\x7d', by simp [Bracket.token, display], fun _ => rfl, fun _ => rfl, rfl⟩
  | square => exact ⟨'[', ']', by simp [Bracket.token, display], fun _ => rfl, fun _ => rfl, rfl⟩

theorem prints_bracket (b : Bracket) {body : List Token} (prints : ∀ t ∈ body, t.Prints) :
    (b.token body).Prints := by
  obtain ⟨c, d, text, opens, closes, stops⟩ := display_token b body
  refine ⟨⟨c, _, text, Piece.not_isBlank_of_next (opens [])⟩, ?_⟩
  intro offset rest _
  have behind : ∀ e ∈ (d :: rest).head?, isNameChar e = false := by simpa using stops
  obtain ⟨found, scans, flat⟩ := exists_scans_displays prints (offset + byteLength [c]) behind
  generalize (" ".intercalate (displays body)).toList = inner at text scans
  have opening : Scans offset [c] [(b.opening, ⟨offset, offset + byteLength [c]⟩)]
      (inner ++ [d] ++ rest) := .single (opens _)
  have closing : Scans (offset + byteLength [c] + byteLength inner) [d] _ rest :=
    .single (closes rest)
  have whole := opening.append (scans.append closing)
  rw [text]
  refine ⟨_, whole, ?_⟩
  rw [flatten_token, List.map_append, List.map_append, flat]
  rfl

section Occurrence

variable {t u : Token} {ts : List Token}

@[simp] theorem not_occurs_nil : ¬u.Occurs [] := by
  rintro (member | ⟨member, _⟩) <;> cases member

@[simp] theorem occurs_cons_iff :
    u.Occurs (t :: ts) ↔ u = t ∨ u.Occurs t.parts ∨ u.Occurs ts := by
  constructor
  · rintro (member | ⟨member, occurs⟩)
    · rcases List.mem_cons.mp member with rfl | later
      · exact .inl rfl
      · exact .inr (.inr (.here later))
    · rcases List.mem_cons.mp member with rfl | later
      · exact .inr (.inl occurs)
      · exact .inr (.inr (.inside later occurs))
  · rintro (rfl | occurs | occurs)
    · exact .here (by simp)
    · exact .inside (by simp) occurs
    · cases occurs with
      | here member => exact .here (by simp [member])
      | inside member occurs => exact .inside (by simp [member]) occurs

theorem Hereditary.of_occurs {Q : Token → Prop} (hereditary : Hereditary Q)
    (held : ∀ t ∈ ts, Q t) (occurs : u.Occurs ts) : Q u := by
  induction occurs with
  | here member => exact held u member
  | inside member _ ih => exact ih (hereditary.parts (held _ member))

theorem parts_token (b : Bracket) (body : List Token) : (b.token body).parts = body := by
  cases b <;> rfl

end Occurrence

/-- Tokens whose words can be found in a source print to text that is scanned to their lexemes. -/
theorem prints_of_isFound (ts : List Token) (plain : anyBool ts = false)
    (found : ∀ l ∈ flattenAll ts, l.IsFound)
    (verbatim : ∀ u : Token, u.Occurs ts → u.isVerbatim = true) : ∀ t ∈ ts, t.Prints := by
  refine plain_induction (motive := fun ts => (∀ l ∈ flattenAll ts, l.IsFound) →
    (∀ u : Token, u.Occurs ts → u.isVerbatim = true) → ∀ t ∈ ts, t.Prints)
    ?_ ?_ ?_ ts plain found verbatim
  · intro _ _ t member
    cases member
  · intro l t ts word ih found verbatim
    rw [flattenAll_word word] at found
    refine List.forall_mem_cons.mpr ⟨?_, ?_⟩
    · exact prints_word word (found l (by simp)) (verbatim t (by simp))
    · exact ih (fun l member => found l (by simp [member])) fun u occurs =>
        verbatim u (by simp [occurs])
  · intro b body ts inside ih found verbatim
    rw [flattenAll_bracket] at found
    refine List.forall_mem_cons.mpr ⟨?_, ?_⟩
    · exact prints_bracket b (inside (fun l member => found l (by simp [member])) fun u occurs =>
        verbatim u (by simp [parts_token, occurs]))
    · exact ih (fun l member => found l (by simp [member])) fun u occurs =>
        verbatim u (by simp [occurs])

/-- What tokens of sources are like: their words are found in sources, and brackets are nested in
them at most `bound` deep. -/
structure Readable (bound : Nat) (t : Token) : Prop where
  plain : t.holdsBool = false
  found : ∀ l ∈ t.flatten, l.IsFound
  nested : t.nesting ≤ bound

theorem anyBool_eq_false_iff (ts : List Token) :
    anyBool ts = false ↔ ∀ t ∈ ts, t.holdsBool = false := by
  induction ts with
  | nil => simp [anyBool]
  | cons t ts ih => simp [anyBool, ih]

theorem mem_flattenAll_iff (l : Lexeme) (ts : List Token) :
    l ∈ flattenAll ts ↔ ∃ t ∈ ts, l ∈ t.flatten := by
  induction ts with
  | nil => simp [flattenAll]
  | cons t ts ih => simp [flattenAll, ih]

theorem nestingAll_le_iff (ts : List Token) (bound : Nat) :
    nestingAll ts ≤ bound ↔ ∀ t ∈ ts, t.nesting ≤ bound := by
  induction ts with
  | nil => simp [nestingAll]
  | cons t ts ih => simp [nestingAll, ih]

namespace Readable

variable {bound : Nat} {t : Token}

theorem of_all {ts : List Token} (plain : anyBool ts = false)
    (found : ∀ l ∈ flattenAll ts, l.IsFound) (nested : nestingAll ts ≤ bound) :
    ∀ t ∈ ts, t.Readable bound := by
  intro t member
  exact ⟨(anyBool_eq_false_iff ts).mp plain t member,
    fun l inside => found l ((mem_flattenAll_iff l ts).mpr ⟨t, member, inside⟩),
    (nestingAll_le_iff ts bound).mp nested t member⟩

theorem mono {bound' : Nat} (readable : t.Readable bound) (le : bound ≤ bound') :
    t.Readable bound' :=
  ⟨readable.plain, readable.found, Nat.le_trans readable.nested le⟩

private theorem of_token (b : Bracket) {body : List Token}
    (readable : (b.token body).Readable bound) : ∀ u ∈ body, u.Readable (bound - 1) := by
  obtain ⟨plain, found, nested⟩ := readable
  rw [holdsBool_token] at plain
  rw [flatten_token] at found
  rw [nesting_token] at nested
  exact of_all plain (fun l member => found l (by simp [member])) (by omega)

protected theorem parts (readable : t.Readable bound) : ∀ u ∈ t.parts, u.Readable (bound - 1) := by
  cases t with
  | inline body => exact of_token .square readable
  | procedure body => exact of_token .brace readable
  | _ => simp [Token.parts]

theorem hereditary (bound : Nat) : Hereditary (Readable bound) where
  inline := fun readable u member => (readable.parts u member).mono (Nat.sub_le _ _)
  procedure := fun readable u member => (readable.parts u member).mono (Nat.sub_le _ _)

theorem token (b : Bracket) {body : List Token} (readable : ∀ u ∈ body, u.Readable bound) :
    (b.token body).Readable (bound + 1) := by
  obtain ⟨c, d, _, opens, closes, _⟩ := display_token b body
  refine ⟨?_, ?_, ?_⟩
  · rw [holdsBool_token, anyBool_eq_false_iff]
    exact fun u member => (readable u member).plain
  · intro l member
    rw [flatten_token, List.mem_cons, List.mem_append, List.mem_singleton] at member
    rcases member with rfl | inside | rfl
    · exact ⟨c, [], opens []⟩
    · obtain ⟨u, member, inside⟩ := (mem_flattenAll_iff l body).mp inside
      exact (readable u member).found l inside
    · exact ⟨d, [], closes []⟩
  · rw [nesting_token, Nat.add_le_add_iff_right, nestingAll_le_iff]
    exact fun u member => (readable u member).nested

theorem of_ofSource {source : String} {tokens : List Token} (read : ofSource source = .ok tokens) :
    ∀ t ∈ tokens, t.Readable nestingLimit := by
  obtain ⟨lexemes, scanned, structured⟩ := bind_eq_ok_iff.mp read
  obtain ⟨plain, written, nested⟩ := (ofLexemes_iff lexemes tokens).mp structured
  refine of_all plain ?_ nested
  rw [← written]
  intro l member
  exact isFound_of_scan scanned member

theorem ofSource_display (readable : t.Readable nestingLimit)
    (verbatim : ∀ u : Token, u.Occurs [t] → u.isVerbatim = true) :
    ofSource t.display = .ok [t] := by
  have plain : anyBool [t] = false := by simp [anyBool, readable.plain]
  have inside : ∀ l ∈ flattenAll [t], l.IsFound := by simpa [flattenAll] using readable.found
  have prints : t.Prints := prints_of_isFound [t] plain inside verbatim t (by simp)
  obtain ⟨found, scans, written⟩ := prints.scan 0 [] (by simp)
  have structured : ofLexemes found = .ok [t] := by
    refine (ofLexemes_iff found [t]).mpr ⟨plain, ?_, ?_⟩
    · simpa [flattenAll] using written
    · simpa [nestingAll] using readable.nested
  exact bind_eq_ok_iff.mpr ⟨found, (scan_eq_ok_iff t.display found).mpr scans, structured⟩

end Readable

/-- Printed code reads back. A token of a source, at any depth, that holds no real number and no
text with a parenthesis or a backslash is read from its own text, and nothing else is. The same
holds of every procedure that is made of such tokens, however they have come into it. -/
theorem printed_code_reads_back :
    (∀ source tokens t, ofSource source = .ok tokens → t.Occurs tokens →
      (∀ u : Token, u.Occurs [t] → u.isVerbatim = true) → ofSource t.display = .ok [t]) ∧
    ∀ settings sources p,
      let store := ((Interpreter.create settings).runSources sources).machine.store
      (∀ u : Token, u.Occurs (store.body p) → u.isVerbatim = true) →
        ofSource (store.display (.procedure p)) = .ok [.procedure (store.body p)] := by
  constructor
  · intro source tokens t read occurs verbatim
    have readable : t.Readable nestingLimit :=
      (Readable.hereditary _).of_occurs (Readable.of_ofSource read) occurs
    exact readable.ofSource_display verbatim
  · intro settings sources p store verbatim
    -- What is stored was inside a bracket of a source, so one more bracket is not too deep.
    have stored : store.Holds (Readable (nestingLimit - 1)) := by
      refine Interpreter.runSources_holds (Readable.hereditary _) ?_ Machine.fresh_holds sources
      intro source tokens read t member
      exact (Readable.of_ofSource read t member).parts
    have readable : (Token.procedure (store.body p)).Readable nestingLimit :=
      Readable.token .brace (stored p)
    refine readable.ofSource_display ?_
    intro u occurs
    rcases occurs_cons_iff.mp occurs with rfl | inside | none
    · rfl
    · exact verbatim u inside
    · exact absurd none not_occurs_nil

/-- A procedure inside a bracket, and one that is overwritten in part by another source. -/
theorem printed_code_reads_back_splice :
    let inner : Token := .procedure [.text "a %b", .define "x", .number (.int (-7)), .name "-7-"]
    let tokens : List Token := [.inline [.number (.int 2), inner]]
    let sources := ["{1 [two]}", "0 {(p)} putinterval"]
    let store := ((Interpreter.create ⟨.lexical, 3⟩).runSources sources).machine.store
    ofSource "[2{(a %b)/x -7 -7-}]" = .ok tokens ∧ inner.Occurs tokens ∧
      ofSource "{(a %b) /x -7 -7-}" = .ok [inner] ∧
      store.body ⟨0⟩ = [.text "p", .inline [.name "two"]] ∧
      ofSource "{(p) [two]}" = .ok [.procedure [.text "p", .inline [.name "two"]]] := by
  intro inner tokens sources store
  have read : ofSource "[2{(a %b)/x -7 -7-}]" = .ok [.inline [.number (.int 2),
    .procedure [.text "a %b", .define "x", .number (.int (-7)), .name "-7-"]]] := by rfl
  have occurs : inner.Occurs tokens := by simp [tokens, parts]
  have body : store.body ⟨0⟩ = [.text "p", .inline [.name "two"]] := by rfl
  refine ⟨read, occurs, ?_, body, ?_⟩
  · refine printed_code_reads_back.1 _ tokens inner read occurs ?_
    simp [inner, parts, isVerbatim]
  · have printed := printed_code_reads_back.2 ⟨.lexical, 3⟩ sources ⟨0⟩
    simp only [Store.display] at printed
    rw [body] at printed
    exact printed (by simp [parts, isVerbatim])

end Token

end Stacklet
