import Stacklet.Proofs.CodeProvenance
import Stacklet.Proofs.SourceTiling
import Stacklet.Proofs.TokenStructure
import Stacklet.Text.Blank

set_option autoImplicit false
set_option relaxedAutoImplicit false

/-!
White space around a source that reads. At its start it is white space between lexemes, for nothing
else can start there; at its end it may also belong to a comment, but never to a lexeme. So a source
reads without it to the same program.
-/

namespace Stacklet

open Text (isWhite)

namespace Lexeme

theorem not_isNameChar_of_isWhite {c : Char} (white : isWhite c = true) : isNameChar c = false := by
  cases named : isNameChar c with
  | false => rfl
  | true =>
      have range := range_of_isNameChar named
      simp [isWhite] at white
      omega

namespace Piece

variable {c w : Char} {cs part : List Char} {l : Lexeme}

theorem next_of_isWhite (white : isWhite c = true) (cs : List Char) :
    isBlank c = true ∨ next c cs = .unexpected 1 := by
  have differs (d : Char) (black : isWhite d = false) : c ≠ d := by
    rintro rfl
    rw [white] at black
    cases black
  obtain ⟨start, digit⟩ := Bool.or_eq_false_iff.mp (not_isNameChar_of_isWhite white)
  cases blank : isBlank c with
  | true => exact .inl rfl
  | false => exact .inr (by simp [next, blank, differs, start, digit, isWhite])

private theorem closing_of_ofText {d : Delimiter} {ps : List Char}
    (found : ofText d (ps ++ [w]) = .lexeme l (ps.length + 2)) : w = d.closing := by
  unfold ofText at found
  simp only at found
  split at found
  · rename_i e rest shape
    split at found
    · rename_i closes
      have length : (d.body (ps ++ [w])).length = ps.length := by
        simp only [lexeme.injEq] at found
        omega
      rw [length, List.drop_left] at shape
      rw [← closes]
      exact (List.cons.inj shape).1
    · cases found
  · cases found

theorem next_ne_lexeme_of_isWhite (white : isWhite c = true) (cs : List Char) (n : Nat) :
    next c cs ≠ .lexeme l n := by
  rcases next_of_isWhite white cs with blank | unexpected
  · rw [next_of_blank blank]
    nofun
  · rw [unexpected]
    nofun

/-- No lexeme ends in white space. -/
theorem not_isWhite_of_next (ends : c :: cs = part ++ [w])
    (found : next c cs = .lexeme l (cs.length + 1)) : isWhite w = false := by
  cases white : isWhite w with
  | false => rfl
  | true =>
      exfalso
      have stops := not_isNameChar_of_isWhite white
      cases part with
      | nil =>
          obtain ⟨rfl, rfl⟩ : c = w ∧ cs = [] := by simpa using ends
          exact next_ne_lexeme_of_isWhite white [] _ found
      | cons _ ps =>
          obtain ⟨rfl, rfl⟩ : c = _ ∧ cs = ps ++ [w] := by simpa using ends
          -- Without its last character the lexeme would be no shorter, yet it is at most as long
          -- as what is left.
          have within := (length_next c ps).2
          have begins := begins_next c
          have impossible {whole short : Piece} (same : whole = short)
              (found : whole = .lexeme l ((ps ++ [w]).length + 1))
              (within : short.length ≤ ps.length + 1) : False := by
            rw [← same, found] at within
            simp [Piece.length] at within
          generalize next c = start at begins found within
          cases begins with
          | blank | comment | other => cases found
          | bracket l sign => simp at found
          | text d sign =>
              have closes : w = d.closing := closing_of_ofText (by simpa using found)
              rw [closes] at white
              cases d <;> cases white
          | definition sign =>
              refine impossible ?_ found within
              simp only [ofDefinition, takeWhile_append_stop stops]
          | numeral digit =>
              refine impossible ?_ found within
              have read := Numeral.read?_append_stop stops (c :: ps) []
              rw [List.cons_append] at read
              simp only [read]
          | run start =>
              refine impossible ?_ found within
              simp only [takeWhile_append_stop stops]

theorem gap_of_append_singleton (found : next c (cs ++ [w]) = .gap (cs.length + 2)) :
    next c cs = .gap (cs.length + 1) := by
  have shorter {p : Char → Bool} (length : ((cs ++ [w]).takeWhile p).length = (cs ++ [w]).length) :
      (cs.takeWhile p).length = cs.length := by
    have whole : ((cs ++ [w] ++ []).takeWhile p).length = (cs ++ [w]).length := by
      rw [List.append_nil, length]
    obtain ⟨all, _⟩ := takeWhile_eq_left whole
    have kept : (cs ++ []).takeWhile p = cs ++ [].takeWhile p :=
      List.takeWhile_append_of_pos fun c member => all c (List.mem_append_left [w] member)
    simpa using congrArg List.length kept
  rcases gap_of_next found with blank | ⟨rfl, comment⟩
  · rw [next_of_blank blank] at found ⊢
    rw [shorter (by simpa using found)]
  · rw [comment] at found ⊢
    rw [shorter (by simpa using found)]

end Piece

namespace Scans

variable {offset : Nat} {part rest : List Char} {lexemes : List (Lexeme × Span)} {w : Char}

theorem relocated (scans : Scans offset part lexemes rest) (offset' : Nat) :
    ∃ lexemes', Scans offset' part lexemes' rest ∧
      lexemes'.map Prod.fst = lexemes.map Prod.fst := by
  induction scans generalizing offset' with
  | done => exact ⟨[], .done, rfl⟩
  | @gap offset c cs part rest lexemes piece _ ih =>
      obtain ⟨lexemes', scans, same⟩ := ih (offset' + byteLength (c :: cs))
      exact ⟨lexemes', .gap piece scans, same⟩
  | @lexeme offset c cs part rest l lexemes piece _ ih =>
      obtain ⟨lexemes', scans, same⟩ := ih (offset' + byteLength (c :: cs))
      exact ⟨_, .lexeme piece scans, by simp [same]⟩

theorem lexemes_eq_nil (scans : Scans offset [] lexemes rest) : lexemes = [] := by
  generalize none : [] = part at scans
  cases scans with
  | done => rfl
  | gap => cases none
  | lexeme => cases none

private theorem cases_append_singleton {as bs : List Char} (whole : part ++ [w] = as ++ bs) :
    (as = part ++ [w] ∧ bs = []) ∨ ∃ front, bs = front ++ [w] ∧ part = as ++ front := by
  rcases List.eq_nil_or_concat' bs with rfl | ⟨front, v, rfl⟩
  · rw [List.append_nil] at whole
    exact .inl ⟨whole.symm, rfl⟩
  · rw [← List.append_assoc] at whole
    obtain ⟨rfl, same⟩ := List.append_inj' whole rfl
    cases same
    exact .inr ⟨front, rfl, rfl⟩

theorem dropLast_of_isWhite (scans : Scans offset (part ++ [w]) lexemes [])
    (white : isWhite w = true) : Scans offset part lexemes [] := by
  have shortened {c : Char} {cs front : List Char} {piece : Piece}
      (found : Piece.next c (cs ++ (front ++ [w] ++ [])) = piece) (proper : piece.isProper = true)
      (length : piece.length = cs.length + 1) : Piece.next c (cs ++ (front ++ [])) = piece := by
    rw [List.append_nil, ← List.append_assoc] at found
    rw [List.append_nil]
    exact Piece.next_of_append found proper (by simp [length])
  generalize whole : part ++ [w] = text at scans
  generalize none : [] = rest at scans
  induction scans generalizing part with
  | done => simp at whole
  | @gap offset c cs after rest lexemes piece tail ih =>
      subst none
      rcases cases_append_singleton whole with ⟨ends, rfl⟩ | ⟨front, rfl, rfl⟩
      · obtain rfl := tail.lexemes_eq_nil
        cases part with
        | nil => exact .done
        | cons d ps =>
            obtain ⟨rfl, rfl⟩ := List.cons.inj ends
            have longer : Piece.next c (ps ++ [w]) = .gap (ps.length + 2) := by simpa using piece
            have shorter := Piece.gap_of_append_singleton longer
            exact .skip (by rwa [List.append_nil])
      · exact .gap (shortened piece rfl rfl) (ih rfl rfl)
  | @lexeme offset c cs after rest l lexemes piece tail ih =>
      subst none
      rcases cases_append_singleton whole with ⟨ends, rfl⟩ | ⟨front, rfl, rfl⟩
      · rw [List.append_nil, List.append_nil] at piece
        rw [Piece.not_isWhite_of_next ends piece] at white
        cases white
      · exact .lexeme (shortened piece rfl rfl) (ih rfl rfl)

theorem tail_of_isWhite (scans : Scans offset (w :: part) lexemes rest) (white : isWhite w = true) :
    Scans (offset + w.utf8Size) part lexemes rest := by
  generalize whole : w :: part = text at scans
  cases scans with
  | done => cases whole
  | @gap _ c cs after _ _ piece tail =>
      obtain ⟨rfl, rfl⟩ := List.cons.inj whole
      rcases Piece.next_of_isWhite white (cs ++ (after ++ rest)) with blank | unexpected
      · rw [Piece.next_of_blank blank] at piece
        obtain ⟨all, _⟩ := takeWhile_eq_left (by simpa using piece)
        rw [byteLength_cons, ← Nat.add_assoc] at tail
        cases cs with
        | nil => exact tail
        | cons d ds =>
            have first : isBlank d = true := all d (by simp)
            refine .gap ?_ tail
            rw [Piece.next_of_blank first]
            simpa [List.takeWhile_cons, first] using piece
      · rw [unexpected] at piece
        cases piece
  | lexeme piece tail =>
      obtain ⟨rfl, rfl⟩ := List.cons.inj whole
      exact absurd piece (Piece.next_ne_lexeme_of_isWhite white _ _)

theorem drop_white {ws : List Char} (white : ∀ w ∈ ws, isWhite w = true)
    (scans : Scans offset (ws ++ part) lexemes rest) :
    Scans (offset + byteLength ws) part lexemes rest := by
  induction ws generalizing offset with
  | nil => exact scans
  | cons w ws ih =>
      obtain ⟨here, later⟩ := List.forall_mem_cons.mp white
      have tail := ih later (scans.tail_of_isWhite here)
      rwa [byteLength_cons, ← Nat.add_assoc]

theorem take_white {ws : List Char} (white : ∀ w ∈ ws, isWhite w = true)
    (scans : Scans offset (part ++ ws) lexemes []) : Scans offset part lexemes [] := by
  induction ws generalizing part with
  | nil => rwa [List.append_nil] at scans
  | cons w ws ih =>
      obtain ⟨here, later⟩ := List.forall_mem_cons.mp white
      rw [List.append_cons] at scans
      exact (ih later scans).dropLast_of_isWhite here

theorem trim (scans : Scans offset part lexemes []) :
    ∃ lexemes', Scans 0 (Text.trim part) lexemes' [] ∧
      lexemes'.map Prod.fst = lexemes.map Prod.fst := by
  have split (cs : List Char) : cs = cs.takeWhile isWhite ++ cs.dropWhile isWhite :=
    List.takeWhile_append_dropWhile.symm
  have all (cs : List Char) : ∀ w ∈ cs.takeWhile isWhite, isWhite w = true :=
    List.all_eq_true.mp List.all_takeWhile
  rw [split part] at scans
  have front := scans.drop_white (all part)
  have ends : part.dropWhile isWhite =
      Text.trim part ++ ((part.dropWhile isWhite).reverse.takeWhile isWhite).reverse := by
    rw [Text.trim, ← List.reverse_append, ← split, List.reverse_reverse]
  rw [ends] at front
  refine (front.take_white ?_).relocated 0
  intro w member
  exact all _ w (List.mem_reverse.mp member)

end Scans

end Lexeme

namespace Token

/-- A source reads without the white space around it to the same program. -/
theorem ofSource_trim {source : String} {tokens : List Token}
    (read : ofSource source = .ok tokens) :
    ofSource (String.ofList (Text.trim source.toList)) = .ok tokens := by
  obtain ⟨lexemes, scanned, structured⟩ := bind_eq_ok_iff.mp read
  obtain ⟨lexemes', scans, same⟩ := ((Lexeme.scan_eq_ok_iff source lexemes).mp scanned).trim
  refine bind_eq_ok_iff.mpr ⟨lexemes', (Lexeme.scan_eq_ok_iff _ lexemes').mpr ?_, ?_⟩
  · rwa [String.toList_ofList]
  · rw [ofLexemes_iff] at structured ⊢
    rwa [same]

end Token

end Stacklet
