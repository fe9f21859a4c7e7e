import Stacklet.Proofs.NewlineScan

set_option autoImplicit false
set_option relaxedAutoImplicit false

/-!
How far a piece reaches. It takes at least one character, and what it is depends on no character
behind its end: a source cut off there, or anywhere later, starts with the same piece.
-/

namespace Stacklet.Lexeme

theorem takeWhile_of_append {p : Char → Bool} {as bs : List Char}
    (within : ((as ++ bs).takeWhile p).length ≤ as.length) :
    as.takeWhile p = (as ++ bs).takeWhile p := by
  rw [List.takeWhile_append] at within ⊢
  split
  · rename_i full
    rw [if_pos full, List.length_append] at within
    have nothing : bs.takeWhile p = [] := List.length_eq_zero_iff.mp (by omega)
    have all : as.takeWhile p = as := (List.takeWhile_prefix p).eq_of_length full
    rw [nothing, all, List.append_nil]
  · rfl

theorem fractionRun_of_append {as bs : List Char}
    (within : Numeral.fractionLength (fractionRun (as ++ bs)) ≤ as.length) :
    fractionRun as = fractionRun (as ++ bs) := by
  cases as with
  | nil =>
      have empty : fractionRun bs = [] := by
        unfold Numeral.fractionLength at within
        split at within
        · rename_i none
          exact List.isEmpty_iff.mp none
        · simp only [List.length_nil] at within
          omega
      rw [List.nil_append, empty]
      rfl
  | cons c as =>
      by_cases point : c = '.'
      · subst point
        have digits : (digitRun (as ++ bs)).length ≤ as.length := by
          simp only [List.cons_append, fractionRun, Numeral.fractionLength,
            List.length_cons] at within
          split at within
          · rename_i none
            simp [List.isEmpty_iff.mp none]
          · omega
        exact takeWhile_of_append digits
      · simp [fractionRun, point]

def PowerSign.text : PowerSign → List Char
  | .absent => []
  | .plus => ['+']
  | .minus => ['-']

theorem PowerSign.length_text (sign : PowerSign) :
    sign.text.length = if sign = .absent then 0 else 1 := by
  cases sign <;> rfl

namespace Power

theorem two_le_length {cs : List Char} {p : Power} (read : read? cs = some p) : 2 ≤ p.length := by
  have signed : ∀ {sign : PowerSign} {ds : List Char}, ofSigned? sign ds = some p →
      2 ≤ p.length := by
    intro sign ds found
    unfold ofSigned? at found
    split at found
    · cases found
    · rename_i some
      cases found
      have digits : 0 < (digitRun ds).length := List.length_pos_iff.mpr some
      unfold length
      dsimp only
      omega
  unfold read? at read
  split at read
  · cases read
  · split at read
    · split at read <;> exact signed read
    · cases read

private theorem ofSigned?_of_append {sign : PowerSign} {as bs : List Char}
    (within : ∀ p, ofSigned? sign (as ++ bs) = some p →
      p.length ≤ 1 + (if sign = .absent then 0 else 1) + as.length) :
    ofSigned? sign as = ofSigned? sign (as ++ bs) := by
  have digits : (digitRun (as ++ bs)).length ≤ as.length := by
    by_cases none : digitRun (as ++ bs) = []
    · simp [none]
    · have written := within ⟨sign, digitRun (as ++ bs)⟩ (by simp [ofSigned?])
      simp only [length] at written
      omega
  have same : digitRun as = digitRun (as ++ bs) := takeWhile_of_append digits
  simp only [ofSigned?, same]

theorem exists_signed {mark : Char} (marked : mark = 'e' ∨ mark = 'E') (c : Char)
    (cs : List Char) :
    ∃ sign ds, c :: cs = sign.text ++ ds ∧
      ∀ rest, read? (mark :: c :: (cs ++ rest)) = ofSigned? sign (ds ++ rest) := by
  by_cases plus : c = '+'
  · subst plus
    exact ⟨.plus, cs, rfl, fun rest => by simp [read?, marked]⟩
  · by_cases minus : c = '-'
    · subst minus
      exact ⟨.minus, cs, rfl, fun rest => by simp [read?, marked]⟩
    · exact ⟨.absent, c :: cs, rfl, fun rest => by simp [read?, marked, plus, minus]⟩

theorem read?_of_append {as bs : List Char}
    (within : ∀ p, read? (as ++ bs) = some p → p.length ≤ as.length) :
    read? as = read? (as ++ bs) := by
  -- With fewer than two characters kept there is no power, neither before the cut nor after it.
  have short : as.length < 2 → read? (as ++ bs) = none := by
    intro few
    cases written : read? (as ++ bs) with
    | none => rfl
    | some p =>
        have least := two_le_length written
        have most := within p written
        omega
  match as, within, short with
  | [], _, short =>
      rw [short (by simp)]
      rfl
  | [mark], _, short =>
      rw [short (by simp)]
      simp [read?, ofSigned?, digitRun]
  | mark :: c :: cs, within, _ =>
      by_cases marked : mark = 'e' ∨ mark = 'E'
      · obtain ⟨sign, ds, split, signed⟩ := exists_signed marked c cs
        have lengths := congrArg List.length split
        rw [List.length_cons, List.length_append, sign.length_text] at lengths
        have whole := signed bs
        have part := signed []
        rw [List.append_nil, List.append_nil] at part
        simp only [List.cons_append] at within ⊢
        rw [part, whole]
        refine ofSigned?_of_append fun p written => ?_
        have most := within p (whole.trans written)
        simp only [List.length_cons] at most
        omega
      · simp [read?, marked]

end Power

namespace Numeral

theorem length_pos_of_readUnsigned? {negative : Bool} {cs : List Char} {n : Numeral}
    (read : readUnsigned? negative cs = some n) : 0 < n.length := by
  rw [readUnsigned?_eq] at read
  split at read
  · cases read
  · rename_i digits
    cases read
    have whole : 0 < (digitRun cs).length := List.length_pos_iff.mpr digits
    simp only [length]
    omega

theorem length_pos_of_read? {cs : List Char} {n : Numeral} (read : read? cs = some n) :
    0 < n.length := by
  unfold read? at read
  split at read <;> exact length_pos_of_readUnsigned? read

theorem readUnsigned?_of_append {negative : Bool} {as bs : List Char} {n : Numeral}
    (read : readUnsigned? negative (as ++ bs) = some n)
    (within : n.length ≤ (if negative then 1 else 0) + as.length) :
    readUnsigned? negative as = some n := by
  rw [readUnsigned?_eq] at read ⊢
  split at read
  · cases read
  · rename_i digits
    cases read
    simp only [length] at within
    have whole : digitRun as = digitRun (as ++ bs) := takeWhile_of_append (by
      change (digitRun (as ++ bs)).length ≤ as.length
      omega)
    have inside : (digitRun (as ++ bs)).length ≤ as.length := by omega
    have kept := List.length_drop (i := (digitRun (as ++ bs)).length) (l := as)
    rw [List.drop_append_of_le_length inside] at within ⊢
    rw [whole, if_neg digits]
    generalize as.drop (digitRun (as ++ bs)).length = left at within kept ⊢
    have fraction : fractionRun left = fractionRun (left ++ bs) := fractionRun_of_append (by omega)
    have reach : fractionLength (fractionRun (left ++ bs)) ≤ left.length := by omega
    have power : Power.read? (left.drop (fractionLength (fractionRun (left ++ bs)))) =
        Power.read? ((left ++ bs).drop (fractionLength (fractionRun (left ++ bs)))) := by
      rw [List.drop_append_of_le_length reach] at within ⊢
      refine Power.read?_of_append fun p written => ?_
      rw [written] at within
      simp only [Option.map_some, Option.getD_some] at within
      rw [List.length_drop]
      omega
    simp only [fraction, power]

theorem read?_of_append {as bs : List Char} {n : Numeral} (read : read? (as ++ bs) = some n)
    (within : n.length ≤ as.length) : read? as = some n := by
  cases as with
  | nil =>
      have positive := length_pos_of_read? read
      simp only [List.length_nil] at within
      omega
  | cons c as =>
      by_cases minus : c = '-'
      · subst minus
        rw [List.cons_append] at read
        refine readUnsigned?_of_append read ?_
        simp only [List.length_cons, reduceIte] at within ⊢
        omega
      · have unsigned : ∀ ds, read? (c :: ds) = readUnsigned? false (c :: ds) := by
          intro ds
          simp [read?, minus]
        rw [List.cons_append, unsigned, ← List.cons_append] at read
        rw [unsigned]
        refine readUnsigned?_of_append read ?_
        simpa using within

end Numeral

namespace Delimiter

theorem body_of_append {d : Delimiter} {as bs : List Char}
    (within : (d.body (as ++ bs)).length < as.length) : d.body as = d.body (as ++ bs) := by
  fun_induction body d as with
  | case1 => cases within
  | case2 cs => simp [body]
  | case3 c cs other ih =>
      simp only [List.cons_append, body, if_neg other, List.length_cons] at within ⊢
      rw [ih (by omega)]
  | case4 c cs other plain ih =>
      have ordinary : c ≠ '\\' := by
        rintro rfl
        rw [isPlain_backslash] at plain
        cases plain
      rw [List.cons_append, body_cons ordinary, if_pos plain] at within ⊢
      simp only [List.length_cons] at within
      rw [ih (by omega)]
  | case5 c cs other blocked =>
      by_cases ordinary : c = '\\'
      · -- A backslash at the cut would take the character behind it into the body.
        subst ordinary
        cases cs with
        | nil =>
            have empty : d.body ('\\' :: bs) = [] := by
              apply List.length_eq_zero_iff.mp
              simpa using within
            exact empty.symm
        | cons e es => exact absurd rfl (other e es rfl)
      · rw [List.cons_append, body_cons ordinary, if_neg blocked]

theorem body_append_drop (d : Delimiter) (cs : List Char) :
    d.body cs ++ cs.drop (d.body cs).length = cs := by
  fun_induction body d cs with
  | case1 => rfl
  | case2 cs => rfl
  | case3 c cs other ih => simpa using ih
  | case4 c cs _ plain ih => simpa using ih
  | case5 => rfl

end Delimiter

namespace Piece

/-- Whether a piece is of use: white space, a comment or a lexeme. -/
def isProper : Piece → Bool
  | .gap _ => true
  | .lexeme _ _ => true
  | _ => false

theorem length_body_le (d : Delimiter) (cs : List Char) : (d.body cs).length ≤ cs.length := by
  have lengths := congrArg List.length (d.body_append_drop cs)
  rw [List.length_append] at lengths
  omega

private theorem length_ofText (d : Delimiter) (cs : List Char) :
    0 < (ofText d cs).length ∧ (ofText d cs).length ≤ cs.length + 1 := by
  have inside := length_body_le d cs
  unfold ofText
  dsimp only
  split
  · rename_i c rest shape
    have behind : 0 < (cs.drop (d.body cs).length).length := by simp [shape]
    rw [List.length_drop] at behind
    split
    · simp only [length]
      omega
    · simp only [length]
      omega
  · simp only [length]
    omega

private theorem length_ofDefinition (cs : List Char) :
    0 < (ofDefinition cs).length ∧ (ofDefinition cs).length ≤ cs.length + 1 := by
  have inside : (cs.takeWhile isNameChar).length ≤ cs.length :=
    (List.takeWhile_prefix _).length_le
  unfold ofDefinition
  split
  · simp [length]
  · rename_i c run shape
    rw [shape, List.length_cons] at inside
    split
    · simp only [length]
      omega
    · simp [length]

theorem length_next (c : Char) (cs : List Char) :
    0 < (next c cs).length ∧ (next c cs).length ≤ cs.length + 1 := by
  have inside (p : Char → Bool) : (cs.takeWhile p).length ≤ cs.length :=
    (List.takeWhile_prefix p).length_le
  have begins := begins_next c
  generalize next c = piece at begins ⊢
  cases begins with
  | blank =>
      have := inside isBlank
      simp only [length]
      omega
  | comment =>
      have := inside (· != '\n')
      simp only [length]
      omega
  | bracket => simp [length]
  | text d => exact length_ofText d cs
  | definition => exact length_ofDefinition cs
  | numeral =>
      dsimp only
      split
      · rename_i numeral read
        rw [length_ofNumeral]
        exact ⟨Numeral.length_pos_of_read? read, Numeral.length_read?_le read⟩
      · simp [length]
  | run =>
      have := inside isNameChar
      rw [length_ofRun, List.length_cons]
      omega
  | other => simp [length]

private theorem ofText_of_append {d : Delimiter} {as bs : List Char} {piece : Piece}
    (found : ofText d (as ++ bs) = piece) (proper : piece.isProper = true)
    (within : piece.length ≤ as.length + 1) : ofText d as = piece := by
  subst found
  unfold ofText at proper within ⊢
  dsimp only at proper within ⊢
  split at proper
  · rename_i c rest shape
    split at proper
    · rename_i closing
      subst closing
      simp only [shape, reduceIte, length] at within ⊢
      have same : d.body as = d.body (as ++ bs) := Delimiter.body_of_append (by omega)
      have behind : (d.body (as ++ bs)).length < as.length := by omega
      rw [List.drop_append_of_le_length (Nat.le_of_lt behind)] at shape
      rw [same]
      cases kept : as.drop (d.body (as ++ bs)).length with
      | nil =>
          have none := List.drop_eq_nil_iff.mp kept
          omega
      | cons e es =>
          rw [kept, List.cons_append] at shape
          obtain ⟨rfl, _⟩ := List.cons.inj shape
          simp
    · cases proper
  · cases proper

private theorem ofDefinition_of_append {as bs : List Char} {piece : Piece}
    (found : ofDefinition (as ++ bs) = piece) (proper : piece.isProper = true)
    (within : piece.length ≤ as.length + 1) : ofDefinition as = piece := by
  subst found
  have run : as.takeWhile isNameChar = (as ++ bs).takeWhile isNameChar := by
    apply takeWhile_of_append
    unfold ofDefinition at proper within
    split at proper
    · cases proper
    · rename_i c run shape
      split at proper
      · rename_i start
        simp only [shape, start, reduceIte, length] at within
        rw [shape, List.length_cons]
        omega
      · cases proper
  unfold ofDefinition
  rw [run]

/-- A source cut off behind a piece starts with the same piece. -/
theorem next_of_append {c : Char} {as bs : List Char} {piece : Piece}
    (found : next c (as ++ bs) = piece) (proper : piece.isProper = true)
    (within : piece.length ≤ as.length + 1) : next c as = piece := by
  have begins := begins_next c
  generalize next c = start at begins found ⊢
  cases begins with
  | blank =>
      subst found
      have run : as.takeWhile isBlank = (as ++ bs).takeWhile isBlank :=
        takeWhile_of_append (Nat.le_of_succ_le_succ within)
      simp only [run]
  | comment =>
      subst found
      have run : as.takeWhile (· != '\n') = (as ++ bs).takeWhile (· != '\n') :=
        takeWhile_of_append (Nat.le_of_succ_le_succ within)
      simp only [run]
  | bracket => exact found
  | text d => exact ofText_of_append found proper within
  | definition => exact ofDefinition_of_append found proper within
  | numeral =>
      subst found
      dsimp only at proper within ⊢
      split at proper
      · rename_i numeral read
        rw [read] at within
        simp only [length_ofNumeral] at within
        have cut : Numeral.read? (c :: as) = some numeral :=
          Numeral.read?_of_append read within
        simp only [cut]
      · cases proper
  | run =>
      subst found
      simp only [length_ofRun, List.length_cons] at within
      have run : as.takeWhile isNameChar = (as ++ bs).takeWhile isNameChar :=
        takeWhile_of_append (Nat.le_of_succ_le_succ within)
      simp only [run]
  | other =>
      subst found
      cases proper

end Piece

end Stacklet.Lexeme
