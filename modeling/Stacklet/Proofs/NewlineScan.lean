import Stacklet.Lexeme.Scanner

set_option autoImplicit false
set_option relaxedAutoImplicit false

/-!
Scanning across a newline. No lexeme that ends before a character with which no name goes on depends
on what comes after it, not even a numeral that breaks off. A newline is such a character, and a
comment ends there too. So a source that scans by itself is cut in the same way when a newline and
anything else follow it.
-/

namespace Stacklet.Lexeme

theorem takeWhile_append_stop {p : Char → Bool} {stop : Char} (stops : p stop = false)
    (cs bs : List Char) : (cs ++ stop :: bs).takeWhile p = cs.takeWhile p := by
  induction cs with
  | nil => simp [stops]
  | cons c cs ih => simp [List.takeWhile_cons, ih]

theorem ne_of_isNameChar {stop c : Char} (stops : isNameChar stop = false)
    (named : isNameChar c = true) : stop ≠ c := by
  rintro rfl
  rw [stops] at named
  cases named

theorem digitRun_append_stop {stop : Char} (stops : isNameChar stop = false) (cs bs : List Char) :
    digitRun (cs ++ stop :: bs) = digitRun cs :=
  takeWhile_append_stop (Bool.or_eq_false_iff.mp stops).2 cs bs

theorem length_digitRun_le (cs : List Char) : (digitRun cs).length ≤ cs.length :=
  (List.takeWhile_prefix _).length_le

theorem fractionRun_append_stop {stop : Char} (stops : isNameChar stop = false)
    (cs bs : List Char) : fractionRun (cs ++ stop :: bs) = fractionRun cs := by
  cases cs with
  | nil => simp [fractionRun, ne_of_isNameChar stops (c := '.') rfl]
  | cons c cs =>
      by_cases point : c = '.'
      · subst point
        exact digitRun_append_stop stops cs bs
      · simp [fractionRun, point]

theorem fractionLength_fractionRun_le (cs : List Char) :
    Numeral.fractionLength (fractionRun cs) ≤ cs.length := by
  cases cs with
  | nil => exact Nat.le_refl 0
  | cons c cs =>
      by_cases point : c = '.'
      · subst point
        have within := length_digitRun_le cs
        simp only [fractionRun, Numeral.fractionLength, List.length_cons]
        split <;> omega
      · simp [fractionRun, point, Numeral.fractionLength]

namespace Power

theorem ofSigned?_append_stop {stop : Char} (stops : isNameChar stop = false) (sign : PowerSign)
    (cs bs : List Char) : ofSigned? sign (cs ++ stop :: bs) = ofSigned? sign cs := by
  simp only [ofSigned?, digitRun_append_stop stops]

theorem read?_append_stop {stop : Char} (stops : isNameChar stop = false) (cs bs : List Char) :
    read? (cs ++ stop :: bs) = read? cs := by
  cases cs with
  | nil =>
      simp [read?, ne_of_isNameChar stops (c := 'e') rfl, ne_of_isNameChar stops (c := 'E') rfl]
  | cons mark cs =>
      simp only [List.cons_append, read?]
      split
      · cases cs with
        | nil =>
            simpa [ne_of_isNameChar stops (c := '+') rfl, ne_of_isNameChar stops (c := '-') rfl]
              using ofSigned?_append_stop stops .absent [] bs
        | cons sign ds =>
            by_cases plus : sign = '+'
            · subst plus
              exact ofSigned?_append_stop stops .plus ds bs
            · by_cases minus : sign = '-'
              · subst minus
                exact ofSigned?_append_stop stops .minus ds bs
              · simpa [plus, minus] using ofSigned?_append_stop stops .absent (sign :: ds) bs
      · rfl

theorem length_ofSigned?_le {sign : PowerSign} {cs : List Char} {p : Power}
    (read : ofSigned? sign cs = some p) :
    p.length ≤ 1 + (if sign = .absent then 0 else 1) + cs.length := by
  have within := length_digitRun_le cs
  unfold ofSigned? at read
  split at read
  · cases read
  · cases read
    exact Nat.add_le_add_left within _

theorem length_read?_le {cs : List Char} {p : Power} (read : read? cs = some p) :
    p.length ≤ cs.length := by
  unfold read? at read
  split at read
  · cases read
  · split at read
    · split at read <;>
      · have within := length_ofSigned?_le read
        simp only [reduceIte, reduceCtorEq] at within
        simp only [List.length_cons]
        omega
    · cases read

end Power

namespace Numeral

theorem readUnsigned?_eq (negative : Bool) (cs : List Char) :
    readUnsigned? negative cs =
      if digitRun cs = [] then none
      else
        let afterWhole := cs.drop (digitRun cs).length
        let fraction := fractionRun afterWhole
        some ⟨negative, digitRun cs, fraction,
          Power.read? (afterWhole.drop (fractionLength fraction))⟩ := by
  unfold readUnsigned?
  split
  · rename_i none
    rw [if_pos none]
  · rename_i digits
    rw [if_neg digits]

theorem readUnsigned?_append_stop {stop : Char} (stops : isNameChar stop = false)
    (negative : Bool) (cs bs : List Char) :
    readUnsigned? negative (cs ++ stop :: bs) = readUnsigned? negative cs := by
  have whole := length_digitRun_le cs
  have fraction := fractionLength_fractionRun_le (cs.drop (digitRun cs).length)
  simp only [readUnsigned?_eq, digitRun_append_stop stops, List.drop_append_of_le_length whole,
    fractionRun_append_stop stops, List.drop_append_of_le_length fraction,
    Power.read?_append_stop stops]

theorem read?_append_stop {stop : Char} (stops : isNameChar stop = false) (cs bs : List Char) :
    read? (cs ++ stop :: bs) = read? cs := by
  cases cs with
  | nil =>
      have unsigned := readUnsigned?_append_stop stops false [] bs
      simpa [read?, ne_of_isNameChar stops (c := '-') rfl] using unsigned
  | cons c cs =>
      by_cases minus : c = '-'
      · subst minus
        exact readUnsigned?_append_stop stops true cs bs
      · simpa [read?, minus] using readUnsigned?_append_stop stops false (c :: cs) bs

theorem length_readUnsigned?_le {negative : Bool} {cs : List Char} {n : Numeral}
    (read : readUnsigned? negative cs = some n) :
    n.length ≤ (if negative then 1 else 0) + cs.length := by
  rw [readUnsigned?_eq] at read
  split at read
  · cases read
  · have whole := length_digitRun_le cs
    have fraction := fractionLength_fractionRun_le (cs.drop (digitRun cs).length)
    have power : ∀ ds : List Char, ((Power.read? ds).map Power.length).getD 0 ≤ ds.length := by
      intro ds
      cases written : Power.read? ds with
      | none => exact Nat.zero_le _
      | some p => exact Power.length_read?_le written
    cases read
    have rest := power ((cs.drop (digitRun cs).length).drop
      (fractionLength (fractionRun (cs.drop (digitRun cs).length))))
    simp only [length, List.length_drop] at fraction rest ⊢
    omega

theorem length_read?_le {cs : List Char} {n : Numeral} (read : read? cs = some n) :
    n.length ≤ cs.length := by
  unfold read? at read
  split at read
  · have within := length_readUnsigned?_le read
    simp only [reduceIte] at within
    simp only [List.length_cons]
    omega
  · have within := length_readUnsigned?_le read
    simp only [Bool.false_eq_true, reduceIte] at within
    omega

end Numeral

namespace Delimiter

theorem closing_ne_backslash (d : Delimiter) : d.closing ≠ '\\' := by
  cases d <;> decide

theorem isPlain_closing (d : Delimiter) : d.isPlain d.closing = false := by
  cases d <;> rfl

theorem isPlain_backslash (d : Delimiter) : d.isPlain '\\' = false := by
  cases d <;> rfl

theorem body_cons {d : Delimiter} {c : Char} (plain : c ≠ '\\') (cs : List Char) :
    d.body (c :: cs) = if d.isPlain c then c :: d.body cs else [] := by
  rw [body]
  exact fun _ _ same _ => plain same

theorem body_append {d : Delimiter} {cs rest : List Char}
    (closed : cs.drop (d.body cs).length = d.closing :: rest) (bs : List Char) :
    d.body (cs ++ bs) = d.body cs := by
  fun_induction body d cs with
  | case1 => cases closed
  | case2 cs =>
      -- A backslash before a newline is no escape. It ends the body, and it closes no text.
      exact absurd (List.cons.inj closed).1.symm d.closing_ne_backslash
  | case3 c cs other ih =>
      have inner := ih closed
      simp [body, other, inner]
  | case4 c cs other plain ih =>
      have inner := ih closed
      have ordinary : c ≠ '\\' := by
        rintro rfl
        rw [isPlain_backslash] at plain
        cases plain
      rw [List.cons_append, body_cons ordinary, if_pos plain, inner]
  | case5 c cs other blocked =>
      have same : c = d.closing := (List.cons.inj closed).1
      rw [same, List.cons_append, body_cons d.closing_ne_backslash, isPlain_closing]
      rfl

end Delimiter

namespace Piece

variable {l : Lexeme} {n : Nat} {cs : List Char}

theorem ofText_append {d : Delimiter} (closed : ofText d cs = .lexeme l n) (bs : List Char) :
    ofText d (cs ++ bs) = .lexeme l n ∧ n ≤ cs.length + 1 := by
  unfold ofText at closed
  simp only at closed
  split at closed
  · rename_i c rest shape
    split at closed
    · rename_i same
      subst same
      have inside : (d.body cs).length < cs.length := by
        have remains : 0 < (cs.drop (d.body cs).length).length := by simp [shape]
        rw [List.length_drop] at remains
        omega
      cases closed
      constructor
      · simp [ofText, d.body_append shape, List.drop_append_of_le_length (Nat.le_of_lt inside),
          shape]
      · omega
    · cases closed
  · cases closed

theorem ofDefinition_append_stop {stop : Char} (stops : isNameChar stop = false)
    (named : ofDefinition cs = .lexeme l n) (bs : List Char) :
    ofDefinition (cs ++ stop :: bs) = .lexeme l n ∧ n ≤ cs.length + 1 := by
  have within : (cs.takeWhile isNameChar).length ≤ cs.length :=
    (List.takeWhile_prefix _).length_le
  constructor
  · unfold ofDefinition at named ⊢
    rw [takeWhile_append_stop stops]
    exact named
  · unfold ofDefinition at named
    split at named
    · cases named
    · rename_i c run shape
      rw [shape, List.length_cons] at within
      split at named <;> cases named
      omega

theorem length_ofNumeral (numeral : Numeral) : (ofNumeral numeral).length = numeral.length := by
  unfold ofNumeral
  split
  · rfl
  · split <;> rfl

theorem length_ofRun (run : List Char) : (ofRun run).length = run.length := by
  unfold ofRun
  split
  · split
    · rename_i same
      rw [length_ofNumeral, same]
    · rfl
  · rfl

def brackets : List (Char × Lexeme) :=
  [('\x7b', .openBrace), ('\x7d', .closeBrace), ('[', .openBracket), (']', .closeBracket)]

/-- What a character at the head of a source tells about the piece that it starts, whatever
follows. -/
inductive Begins (c : Char) : (List Char → Piece) → Prop
  | blank (white : isBlank c = true) :
      Begins c fun cs => .gap ((cs.takeWhile isBlank).length + 1)
  | comment (black : isBlank c = false) (percent : c = '%') :
      Begins c fun cs => .gap ((cs.takeWhile (· != '\n')).length + 1)
  | bracket (l : Lexeme) (sign : (c, l) ∈ brackets) : Begins c fun _ => .lexeme l 1
  | text (d : Delimiter) (sign : c = '"' ∨ c = '(') : Begins c (ofText d)
  | definition (sign : c = '/') : Begins c ofDefinition
  | numeral (digit : c.isDigit = true) : Begins c fun cs =>
      match Numeral.read? (c :: cs) with
      | some n => ofNumeral n
      | none => .unexpected 1
  | run (start : isNameStart c = true) : Begins c fun cs => ofRun (c :: cs.takeWhile isNameChar)
  | other : Begins c fun _ => .unexpected 1

theorem begins_next (c : Char) : Begins c (next c) := by
  unfold next
  by_cases blank : isBlank c
  · simpa only [if_pos blank] using Begins.blank blank
  by_cases comment : c = '%'
  · simpa only [if_neg blank, if_pos comment] using Begins.comment (by simpa using blank) comment
  by_cases openBrace : c = '\x7b'
  · simpa only [if_neg blank, if_neg comment, if_pos openBrace] using
      Begins.bracket .openBrace (by simp [openBrace, brackets])
  by_cases closeBrace : c = '\x7d'
  · simpa only [if_neg blank, if_neg comment, if_neg openBrace, if_pos closeBrace] using
      Begins.bracket .closeBrace (by simp [closeBrace, brackets])
  simp only [if_neg blank, if_neg comment, if_neg openBrace, if_neg closeBrace]
  by_cases openBracket : c = '['
  · simpa only [if_pos openBracket] using
      Begins.bracket .openBracket (by simp [openBracket, brackets])
  by_cases closeBracket : c = ']'
  · simpa only [if_neg openBracket, if_pos closeBracket] using
      Begins.bracket .closeBracket (by simp [closeBracket, brackets])
  by_cases quote : c = '"'
  · simpa only [if_neg openBracket, if_neg closeBracket, if_pos quote] using
      Begins.text .quote (.inl quote)
  by_cases paren : c = '('
  · simpa only [if_neg openBracket, if_neg closeBracket, if_neg quote, if_pos paren] using
      Begins.text .paren (.inr paren)
  simp only [if_neg openBracket, if_neg closeBracket, if_neg quote, if_neg paren]
  by_cases sign : c = '/'
  · simpa only [if_pos sign] using Begins.definition sign
  by_cases digit : c.isDigit
  · simp only [if_neg sign, if_pos digit]
    exact .numeral digit
  by_cases start : isNameStart c
  · simpa only [if_neg sign, if_neg digit, if_pos start] using Begins.run start
  simpa only [if_neg sign, if_neg digit, if_neg start] using Begins.other

/-- A lexeme at the head of a source that could end there is not changed by what follows behind a
character that no name goes on with. -/
theorem next_append_stop {stop : Char} (stops : isNameChar stop = false) {c : Char}
    (found : next c cs = .lexeme l n) (bs : List Char) :
    next c (cs ++ stop :: bs) = .lexeme l n ∧ n ≤ cs.length + 1 := by
  have begins := begins_next c
  generalize next c = piece at begins found ⊢
  cases begins with
  | blank => cases found
  | comment => cases found
  | bracket =>
      cases found
      exact ⟨rfl, by omega⟩
  | text => exact ofText_append found _
  | definition => exact ofDefinition_append_stop stops found bs
  | numeral =>
      dsimp only at found ⊢
      rw [← List.cons_append, Numeral.read?_append_stop stops]
      refine ⟨found, ?_⟩
      split at found
      · rename_i numeral read
        have taken := length_ofNumeral numeral
        rw [found] at taken
        exact Nat.le_trans (Nat.le_of_eq taken) (Numeral.length_read?_le read)
      · cases found
  | run =>
      dsimp only at found ⊢
      rw [takeWhile_append_stop stops]
      refine ⟨found, ?_⟩
      have within : (cs.takeWhile isNameChar).length ≤ cs.length :=
        (List.takeWhile_prefix _).length_le
      have taken := length_ofRun (c :: cs.takeWhile isNameChar)
      rw [found, List.length_cons] at taken
      exact Nat.le_trans (Nat.le_of_eq taken) (Nat.succ_le_succ within)
  | other => cases found

theorem ofNumeral_ne_gap (numeral : Numeral) (n : Nat) : ofNumeral numeral ≠ .gap n := by
  intro same
  unfold ofNumeral at same
  split at same
  · cases same
  · split at same <;> cases same

theorem gap_of_next {c : Char} (found : next c cs = .gap n) :
    isBlank c = true ∨
      c = '%' ∧ ∀ ds, next c ds = .gap ((ds.takeWhile (· != '\n')).length + 1) := by
  have begins := begins_next c
  generalize next c = piece at begins found ⊢
  cases begins with
  | blank white => exact .inl white
  | comment _ percent => exact .inr ⟨percent, fun _ => rfl⟩
  | bracket => cases found
  | other => cases found
  | text =>
      simp only [ofText] at found
      split at found
      · split at found <;> cases found
      · cases found
  | definition =>
      simp only [ofDefinition] at found
      split at found
      · cases found
      · split at found <;> cases found
  | numeral =>
      dsimp only at found
      split at found
      · exact absurd found (ofNumeral_ne_gap _ _)
      · cases found
  | run =>
      simp only [ofRun] at found
      split at found
      · split at found
        · exact absurd found (ofNumeral_ne_gap _ _)
        · cases found
      · cases found

theorem next_of_blank {c : Char} (white : isBlank c = true) (cs : List Char) :
    next c cs = .gap ((cs.takeWhile isBlank).length + 1) := by
  simp only [next, if_pos white]

end Piece

theorem scanFrom_of_blank {c : Char} (white : isBlank c = true) (found : List (Lexeme × Span))
    (offset : Nat) (cs : List Char) :
    scanFrom found offset 0 (c :: cs) =
      scanFrom found (offset + c.utf8Size) (cs.takeWhile isBlank).length cs := by
  simp only [scanFrom, Piece.next_of_blank white, Nat.add_sub_cancel]

/-- Where blanks follow, it does not matter how many of them belong to the piece before. -/
theorem scanFrom_pending_of_blank (found : List (Lexeme × Span)) (offset : Nat) {pending : Nat}
    {cs : List Char} (blank : pending ≤ (cs.takeWhile isBlank).length) :
    scanFrom found offset pending cs = scanFrom found offset 0 cs := by
  induction cs generalizing offset pending with
  | nil => simp only [scanFrom]
  | cons c cs ih =>
      cases pending with
      | zero => rfl
      | succ pending =>
          have white : isBlank c = true := by
            cases color : isBlank c with
            | true => rfl
            | false => simp [color] at blank
          have within : pending ≤ (cs.takeWhile isBlank).length := by
            simpa [white] using blank
          rw [scanFrom_of_blank white, scanFrom, ih _ within, ih _ (Nat.le_refl _)]

theorem scanFrom_append_newline {found lexemes : List (Lexeme × Span)} {offset pending : Nat}
    {cs : List Char} (scanned : scanFrom found offset pending cs = .ok lexemes)
    (within : pending ≤ cs.length) (bs : List Char) :
    scanFrom found offset pending (cs ++ '\n' :: bs) =
      scanFrom lexemes.reverse (offset + byteLength cs) 0 ('\n' :: bs) := by
  induction cs generalizing found offset pending with
  | nil =>
      cases Nat.le_zero.mp within
      cases scanned
      simp [byteLength]
  | cons c cs ih =>
      have bytes : offset + byteLength (c :: cs) = offset + c.utf8Size + byteLength cs := by
        simp only [byteLength, List.foldr_cons]
        omega
      rw [bytes]
      cases pending with
      | succ pending => exact ih scanned (Nat.le_of_succ_le_succ within)
      | zero =>
          cases piece : Piece.next c cs with
          | tooLarge n => simp [scanFrom, piece] at scanned
          | unexpected n => simp [scanFrom, piece] at scanned
          | lexeme l n =>
              have stops : isNameChar '\n' = false := rfl
              obtain ⟨same, inside⟩ := Piece.next_append_stop stops piece bs
              have spans :
                  spanOf offset n (c :: (cs ++ '\n' :: bs)) = spanOf offset n (c :: cs) := by
                unfold spanOf
                rw [← List.cons_append, List.take_append_of_le_length inside]
              simp only [scanFrom, piece] at scanned
              simp only [List.cons_append, scanFrom, same, spans]
              exact ih scanned (by omega)
          | gap n =>
              rcases Piece.gap_of_next piece with white | ⟨_, comment⟩
              · -- White space can go on across the newline, so the two gaps need not be equal.
                rw [scanFrom_of_blank white,
                  scanFrom_pending_of_blank _ _ (Nat.le_refl _)] at scanned
                rw [List.cons_append, scanFrom_of_blank white,
                  scanFrom_pending_of_blank _ _ (Nat.le_refl _)]
                exact ih scanned (Nat.zero_le _)
              · simp only [scanFrom, comment, Nat.add_sub_cancel] at scanned
                simp only [List.cons_append, scanFrom, comment, Nat.add_sub_cancel]
                rw [takeWhile_append_stop rfl]
                exact ih scanned (List.takeWhile_prefix _).length_le

end Stacklet.Lexeme
