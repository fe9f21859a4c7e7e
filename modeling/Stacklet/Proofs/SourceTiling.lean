import Mathlib.Data.String.Basic
import Stacklet.Proofs.LexemePatterns

set_option autoImplicit false
set_option relaxedAutoImplicit false

/-!
Lexemes and gaps tile a source. A scan goes over it piece by piece, and a piece that it has passed
is the same piece however the source goes on. So each lexeme can be cut out by its span and scanned
alone, what lies between two of them is white space and comments, and what comes before an error is
free of errors. Each lexeme is what the winning pattern makes of the text at its place.
-/

namespace Stacklet

namespace Span

def slice (source : String) (s : Span) : String :=
  String.Pos.Raw.extract source ⟨s.start⟩ ⟨s.stop⟩

/-- Whether a span has its two ends inside a source and between its characters. -/
def Within (source : String) (s : Span) : Prop :=
  String.Pos.Raw.IsValid source ⟨s.start⟩ ∧ String.Pos.Raw.IsValid source ⟨s.stop⟩

end Span

namespace Lexeme

/-- A scan from byte `offset` on goes over `part`, finds `lexemes` in it and is at the end of a
piece, with `rest` still ahead. -/
inductive Scans : (offset : Nat) → (part : List Char) → List (Lexeme × Span) →
    (rest : List Char) → Prop
  | done {offset : Nat} {rest : List Char} : Scans offset [] [] rest
  | gap {offset : Nat} {c : Char} {cs part rest : List Char} {lexemes : List (Lexeme × Span)} :
      Piece.next c (cs ++ (part ++ rest)) = .gap (cs.length + 1) →
        Scans (offset + byteLength (c :: cs)) part lexemes rest →
          Scans offset (c :: cs ++ part) lexemes rest
  | lexeme {offset : Nat} {c : Char} {cs part rest : List Char} {l : Lexeme}
      {lexemes : List (Lexeme × Span)} :
      Piece.next c (cs ++ (part ++ rest)) = .lexeme l (cs.length + 1) →
        Scans (offset + byteLength (c :: cs)) part lexemes rest →
          Scans offset (c :: cs ++ part) ((l, ⟨offset, offset + byteLength (c :: cs)⟩) :: lexemes)
            rest

/-- White-space characters and comments one after the other, with `rest` behind them. A comment
goes up to the next newline or to the end. -/
inductive Skipped : (gap rest : List Char) → Prop
  | nil {rest : List Char} : Skipped [] rest
  | blank {c : Char} {gap rest : List Char} :
      c ∈ [' ', '\t', '\n', '\r', '\x0c'] → Skipped gap rest → Skipped (c :: gap) rest
  | comment {text gap rest : List Char} :
      '\n' ∉ text → (∀ c ∈ (gap ++ rest).head?, c = '\n') → Skipped gap rest →
        Skipped ('%' :: text ++ gap) rest

/-- The spans from `start` to `stop` that spans of lexemes leave out, those at the ends included. -/
def gapsFrom (start stop : Nat) : List (Lexeme × Span) → List Span
  | [] => [⟨start, stop⟩]
  | (_, span) :: rest => ⟨start, span.start⟩ :: gapsFrom span.stop stop rest

@[simp] theorem byteLength_nil : byteLength [] = 0 := rfl

@[simp] theorem byteLength_cons (c : Char) (cs : List Char) :
    byteLength (c :: cs) = c.utf8Size + byteLength cs := rfl

@[simp] theorem byteLength_append (as bs : List Char) :
    byteLength (as ++ bs) = byteLength as + byteLength bs := by
  induction as with
  | nil => simp
  | cons c as ih => simp [ih, Nat.add_assoc]

theorem byteLength_eq_utf8Len (cs : List Char) : byteLength cs = String.utf8Len cs := by
  induction cs with
  | nil => rfl
  | cons c cs ih => rw [byteLength_cons, String.utf8Len_cons, ih, Nat.add_comm]

theorem byteLength_toList (s : String) : byteLength s.toList = s.utf8ByteSize := by
  rw [byteLength_eq_utf8Len, String.utf8Len_toList]

section Slices

variable {source : String} {as bs cs : List Char}

theorem slice_eq_of_toList (split : source.toList = as ++ bs ++ cs) :
    (⟨byteLength as, byteLength as + byteLength bs⟩ : Span).slice source = String.ofList bs := by
  obtain rfl : source = String.ofList (as ++ bs ++ cs) := by rw [← split, String.ofList_toList]
  simp only [Span.slice, byteLength_eq_utf8Len]
  exact String.extract_of_valid as bs cs

theorem slice_end_of_toList (split : source.toList = as ++ bs) :
    (⟨byteLength as, source.utf8ByteSize⟩ : Span).slice source = String.ofList bs := by
  have whole : source.toList = as ++ bs ++ [] := by rw [split, List.append_nil]
  rw [← byteLength_toList, split, byteLength_append]
  exact slice_eq_of_toList whole

private theorem isValid_of_toList (as bs : List Char) (split : source.toList = as ++ bs) :
    String.Pos.Raw.IsValid source ⟨byteLength as⟩ := by
  refine String.Pos.Raw.isValid_iff_exists_append.mpr
    ⟨String.ofList as, String.ofList bs, ?_, ?_⟩
  · rw [← String.ofList_append, ← split, String.ofList_toList]
  · apply String.Pos.Raw.ext
    simp [byteLength_eq_utf8Len]

theorem within_of_toList (split : source.toList = as ++ bs ++ cs) :
    (⟨byteLength as, byteLength as + byteLength bs⟩ : Span).Within source := by
  have start := isValid_of_toList as (bs ++ cs) (by rw [split, List.append_assoc])
  have stop := isValid_of_toList (as ++ bs) cs split
  rw [byteLength_append] at stop
  exact ⟨start, stop⟩

end Slices

theorem scanFrom_pending (found : List (Lexeme × Span)) (offset : Nat) (cs rest : List Char) :
    scanFrom found offset cs.length (cs ++ rest) =
      scanFrom found (offset + byteLength cs) 0 rest := by
  induction cs generalizing offset with
  | nil => rfl
  | cons c cs ih =>
      rw [List.length_cons, List.cons_append, scanFrom, ih, byteLength_cons, Nat.add_assoc]

section Steps

variable {c : Char} {cs rest : List Char} {l : Lexeme}

theorem scanFrom_of_gap (piece : Piece.next c (cs ++ rest) = .gap (cs.length + 1))
    (found : List (Lexeme × Span)) (offset : Nat) :
    scanFrom found offset 0 (c :: cs ++ rest) =
      scanFrom found (offset + byteLength (c :: cs)) 0 rest := by
  rw [List.cons_append, scanFrom, piece]
  dsimp only
  rw [Nat.add_sub_cancel, scanFrom_pending, byteLength_cons, Nat.add_assoc]

theorem scanFrom_of_lexeme (piece : Piece.next c (cs ++ rest) = .lexeme l (cs.length + 1))
    (found : List (Lexeme × Span)) (offset : Nat) :
    scanFrom found offset 0 (c :: cs ++ rest) =
      scanFrom ((l, ⟨offset, offset + byteLength (c :: cs)⟩) :: found)
        (offset + byteLength (c :: cs)) 0 rest := by
  have span : spanOf offset (cs.length + 1) (c :: (cs ++ rest)) =
      ⟨offset, offset + byteLength (c :: cs)⟩ := by
    simp [spanOf]
  rw [List.cons_append, scanFrom, piece]
  dsimp only
  rw [span, Nat.add_sub_cancel, scanFrom_pending, byteLength_cons, Nat.add_assoc]

end Steps

theorem Piece.exists_split (c : Char) (cs : List Char) :
    ∃ as bs, cs = as ++ bs ∧ (next c cs).length = as.length + 1 := by
  obtain ⟨positive, within⟩ := length_next c cs
  refine ⟨cs.take ((next c cs).length - 1), cs.drop ((next c cs).length - 1), ?_, ?_⟩
  · rw [List.take_append_drop]
  · rw [List.length_take]
    omega

theorem exists_scans (offset : Nat) (cs : List Char) :
    ∃ part lexemes rest, cs = part ++ rest ∧ Scans offset part lexemes rest ∧
      ∀ c ds, rest = c :: ds → (Piece.next c ds).isProper = false := by
  -- On the length of the source: a piece takes at least one character off it.
  induction size : cs.length using Nat.strongRecOn generalizing offset cs with
  | ind n ih =>
      cases cs with
      | nil => exact ⟨[], [], [], rfl, .done, by simp⟩
      | cons c cs =>
          obtain ⟨as, bs, rfl, taken⟩ := Piece.exists_split c cs
          have shorter : bs.length < n := by
            simp only [List.length_cons, List.length_append] at size
            omega
          obtain ⟨part, lexemes, rest, rfl, scans, stopped⟩ :=
            ih bs.length shorter (offset + byteLength (c :: as)) bs rfl
          have here : (Piece.next c (as ++ (part ++ rest))).isProper = false →
              ∃ part' lexemes' rest', c :: (as ++ (part ++ rest)) = part' ++ rest' ∧
                Scans offset part' lexemes' rest' ∧
                ∀ d ds, rest' = d :: ds → (Piece.next d ds).isProper = false := by
            intro improper
            refine ⟨[], [], c :: (as ++ (part ++ rest)), rfl, .done, ?_⟩
            rintro d ds ⟨⟩
            exact improper
          cases piece : Piece.next c (as ++ (part ++ rest)) with
          | gap k =>
              obtain rfl : k = as.length + 1 := by simpa [piece, Piece.length] using taken
              exact ⟨c :: as ++ part, lexemes, rest, by simp, .gap piece scans, stopped⟩
          | lexeme l k =>
              obtain rfl : k = as.length + 1 := by simpa [piece, Piece.length] using taken
              exact ⟨c :: as ++ part, _, rest, by simp, .lexeme piece scans, stopped⟩
          | tooLarge k => exact here (by rw [piece]; rfl)
          | unexpected k => exact here (by rw [piece]; rfl)

namespace Scans

variable {offset : Nat} {part rest : List Char} {lexemes : List (Lexeme × Span)}

theorem scanFrom_eq (scans : Scans offset part lexemes rest) (found : List (Lexeme × Span)) :
    scanFrom found offset 0 (part ++ rest) =
      scanFrom (lexemes.reverse ++ found) (offset + byteLength part) 0 rest := by
  induction scans generalizing found with
  | done => rfl
  | gap piece _ ih =>
      rw [List.append_assoc, scanFrom_of_gap piece, ih, byteLength_append, Nat.add_assoc]
  | lexeme piece _ ih =>
      rw [List.append_assoc, scanFrom_of_lexeme piece, ih, byteLength_append, Nat.add_assoc]
      simp

theorem single {c : Char} {cs : List Char} {l : Lexeme}
    (found : Piece.next c (cs ++ rest) = .lexeme l (cs.length + 1)) :
    Scans offset (c :: cs) [(l, ⟨offset, offset + byteLength (c :: cs)⟩)] rest := by
  have here : Piece.next c (cs ++ ([] ++ rest)) = .lexeme l (cs.length + 1) := found
  have scans : Scans offset (c :: cs ++ []) [(l, ⟨offset, offset + byteLength (c :: cs)⟩)] rest :=
    .lexeme here .done
  rwa [List.append_nil] at scans

theorem skip {c : Char} {cs : List Char}
    (found : Piece.next c (cs ++ rest) = .gap (cs.length + 1)) :
    Scans offset (c :: cs) [] rest := by
  have here : Piece.next c (cs ++ ([] ++ rest)) = .gap (cs.length + 1) := found
  have scans : Scans offset (c :: cs ++ []) [] rest := .gap here .done
  rwa [List.append_nil] at scans

theorem append {as bs : List Char} {first second : List (Lexeme × Span)}
    (left : Scans offset as first (bs ++ rest))
    (right : Scans (offset + byteLength as) bs second rest) :
    Scans offset (as ++ bs) (first ++ second) rest := by
  generalize whole : bs ++ rest = behind at left
  induction left with
  | done => exact right
  | gap piece _ ih =>
      subst whole
      rw [byteLength_append, ← Nat.add_assoc] at right
      rw [List.append_assoc]
      exact .gap (by simpa using piece) (ih right rfl)
  | lexeme piece _ ih =>
      subst whole
      rw [byteLength_append, ← Nat.add_assoc] at right
      rw [List.append_assoc]
      exact .lexeme (by simpa using piece) (ih right rfl)

/-- What a scan has gone over it goes over in the same way when the source breaks off behind it. -/
theorem cut {bs : List Char} (scans : Scans offset part lexemes (rest ++ bs)) :
    Scans offset part lexemes rest := by
  generalize whole : rest ++ bs = behind at scans
  have shortened : ∀ {c : Char} {cs part : List Char} {piece : Piece},
      Piece.next c (cs ++ (part ++ (rest ++ bs))) = piece → piece.isProper = true →
        piece.length = cs.length + 1 → Piece.next c (cs ++ (part ++ rest)) = piece := by
    intro c cs part piece found proper length
    have whole : cs ++ (part ++ (rest ++ bs)) = cs ++ (part ++ rest) ++ bs := by simp
    rw [whole] at found
    refine Piece.next_of_append found proper ?_
    simp only [length, List.length_append]
    omega
  induction scans with
  | done => exact .done
  | gap piece _ ih =>
      subst whole
      exact .gap (shortened piece rfl rfl) (ih rfl)
  | lexeme piece _ ih =>
      subst whole
      exact .lexeme (shortened piece rfl rfl) (ih rfl)

theorem exists_of_mem (scans : Scans offset part lexemes rest) {entry : Lexeme × Span}
    (member : entry ∈ lexemes) :
    ∃ before c cs after, part = before ++ (c :: cs) ++ after ∧
      entry.2 = ⟨offset + byteLength before,
        offset + byteLength before + byteLength (c :: cs)⟩ ∧
      Piece.next c (cs ++ (after ++ rest)) = .lexeme entry.1 (cs.length + 1) := by
  induction scans with
  | done => cases member
  | @gap offset c cs part rest lexemes _ _ ih =>
      obtain ⟨before, d, ds, after, rfl, span, found⟩ := ih member
      refine ⟨c :: cs ++ before, d, ds, after, by simp, ?_, found⟩
      rw [span, byteLength_append, Nat.add_assoc]
  | @lexeme offset c cs part rest l lexemes piece _ ih =>
      rcases List.mem_cons.mp member with rfl | later
      · exact ⟨[], c, cs, part, rfl, rfl, piece⟩
      · obtain ⟨before, d, ds, after, rfl, span, found⟩ := ih later
        refine ⟨c :: cs ++ before, d, ds, after, by simp, ?_, found⟩
        rw [span, byteLength_append, Nat.add_assoc]

theorem ordered (scans : Scans offset part lexemes rest) :
    lexemes.Pairwise fun first second => first.2.stop ≤ second.2.start := by
  induction scans with
  | done => exact .nil
  | gap _ _ ih => exact ih
  | lexeme _ tail ih =>
      refine .cons ?_ ih
      intro entry member
      obtain ⟨before, d, ds, after, _, span, _⟩ := tail.exists_of_mem member
      rw [span]
      exact Nat.le_add_right _ _

end Scans

theorem scan_eq_ok_iff (source : String) (lexemes : List (Lexeme × Span)) :
    scan source = .ok lexemes ↔ Scans 0 source.toList lexemes [] := by
  constructor
  · intro scanned
    obtain ⟨part, found, rest, split, scans, stopped⟩ := exists_scans 0 source.toList
    have equation := scans.scanFrom_eq []
    rw [← split] at equation
    cases rest with
    | nil =>
        have same : found = lexemes := by
          simpa [scan, equation, scanFrom] using scanned
        rwa [split, List.append_nil, ← same]
    | cons c ds =>
        have improper := stopped c ds rfl
        rw [scan, equation, scanFrom] at scanned
        cases piece : Piece.next c ds <;> simp [piece, Piece.isProper] at scanned improper
  · intro scans
    have equation := scans.scanFrom_eq []
    rw [List.append_nil] at equation
    rw [scan, equation]
    simp [scanFrom]

theorem exists_of_scan_error {source : String} {e : SourceError} (failed : scan source = .error e) :
    ∃ part lexemes c ds, source.toList = part ++ c :: ds ∧ Scans 0 part lexemes (c :: ds) ∧
      (Piece.next c ds).isProper = false ∧
      e.span = spanOf (byteLength part) (Piece.next c ds).length (c :: ds) := by
  obtain ⟨part, lexemes, rest, split, scans, stopped⟩ := exists_scans 0 source.toList
  have equation := scans.scanFrom_eq []
  rw [← split, Nat.zero_add] at equation
  rw [scan, equation] at failed
  cases rest with
  | nil => simp [scanFrom] at failed
  | cons c ds =>
      have improper := stopped c ds rfl
      refine ⟨part, lexemes, c, ds, split, scans, improper, ?_⟩
      rw [scanFrom] at failed
      cases piece : Piece.next c ds with
      | gap n => simp [piece, Piece.isProper] at improper
      | lexeme l n => simp [piece, Piece.isProper] at improper
      | tooLarge n =>
          rw [piece] at failed
          cases failed
          rfl
      | unexpected n =>
          rw [piece] at failed
          cases failed
          rfl

theorem scan_of_next {c : Char} {cs rest : List Char} {l : Lexeme}
    (found : Piece.next c (cs ++ rest) = .lexeme l (cs.length + 1)) :
    scan (String.ofList (c :: cs)) = .ok [(l, ⟨0, byteLength (c :: cs)⟩)] := by
  have alone : Piece.next c (cs ++ []) = .lexeme l (cs.length + 1) := by
    rw [List.append_nil]
    exact Piece.next_of_append found rfl (Nat.le_refl _)
  have scans : Scans 0 (c :: cs) [(l, ⟨0, 0 + byteLength (c :: cs)⟩)] [] := .single alone
  rw [Nat.zero_add] at scans
  rw [scan_eq_ok_iff, String.toList_ofList]
  exact scans

theorem takeWhile_eq_left {p : Char → Bool} {cs rest : List Char}
    (length : ((cs ++ rest).takeWhile p).length = cs.length) :
    (∀ c ∈ cs, p c = true) ∧ ∀ c ∈ rest.head?, p c = false := by
  have left : (cs ++ rest).takeWhile p = cs :=
    (List.prefix_of_prefix_length_le (List.takeWhile_prefix p) (List.prefix_append cs rest)
      (Nat.le_of_eq length)).eq_of_length length
  have all : ∀ c ∈ cs, p c = true := by
    rw [← left]
    exact List.all_eq_true.mp List.all_takeWhile
  refine ⟨all, ?_⟩
  intro c first
  cases rest with
  | nil => cases first
  | cons d ds =>
      obtain rfl : d = c := Option.some.inj first
      rw [List.takeWhile_append_of_pos all] at left
      cases passes : p d with
      | false => rfl
      | true => simp [passes] at left

namespace Skipped

theorem append {as bs rest : List Char} (first : Skipped as (bs ++ rest))
    (second : Skipped bs rest) : Skipped (as ++ bs) rest := by
  generalize behind : bs ++ rest = whole at first
  induction first with
  | nil => exact second
  | blank white _ ih => exact .blank white (ih behind)
  | @comment text gap _ inside ends _ ih =>
      subst behind
      rw [List.append_assoc]
      refine .comment inside ?_ (ih rfl)
      rwa [List.append_assoc]

theorem of_gap {c : Char} {cs rest : List Char}
    (piece : Piece.next c (cs ++ rest) = .gap (cs.length + 1)) : Skipped (c :: cs) rest := by
  rcases Piece.gap_of_next piece with white | ⟨rfl, comment⟩
  · rw [Piece.next_of_blank white] at piece
    have length := Nat.succ.inj (Piece.gap.inj piece)
    have blanks : ∀ d ∈ c :: cs, isBlank d = true :=
      List.forall_mem_cons.mpr ⟨white, (takeWhile_eq_left length).1⟩
    have skipped : ∀ ds : List Char, (∀ d ∈ ds, isBlank d = true) → Skipped ds rest := by
      intro ds all
      induction ds with
      | nil => exact .nil
      | cons d ds ih =>
          refine .blank ?_ (ih fun e member => all e (by simp [member]))
          simpa [isBlank, or_assoc] using all d (by simp)
    exact skipped (c :: cs) blanks
  · rw [comment] at piece
    have length := Nat.succ.inj (Piece.gap.inj piece)
    obtain ⟨inside, ends⟩ := takeWhile_eq_left length
    have text : '\n' ∉ cs := by
      intro member
      simpa using inside '\n' member
    have ended : ∀ d ∈ ([] ++ rest).head?, d = '\n' := by
      intro d first
      simpa using ends d first
    have skipped : Skipped ('%' :: cs ++ []) rest := .comment text ended .nil
    rwa [List.append_nil] at skipped

end Skipped

private theorem skipped_slice {source : String} {before skipped part : List Char}
    (split : source.toList = before ++ skipped ++ part) (skips : Skipped skipped part) :
    let gap : Span := ⟨byteLength before, byteLength before + byteLength skipped⟩
    gap.Within source ∧ Skipped (gap.slice source).toList
      ((⟨gap.stop, source.utf8ByteSize⟩ : Span).slice source).toList := by
  intro gap
  have stop : gap.stop = byteLength (before ++ skipped) := (byteLength_append before skipped).symm
  have behind : (⟨gap.stop, source.utf8ByteSize⟩ : Span).slice source = String.ofList part := by
    rw [stop]
    exact slice_end_of_toList split
  refine ⟨within_of_toList split, ?_⟩
  rw [behind, slice_eq_of_toList split, String.toList_ofList, String.toList_ofList]
  exact skips

/-- The gaps that a scan leaves when it gets to the end of the source. The text before it is
`before` and then `skipped`, which belongs to the first gap. -/
theorem Scans.skipped_of_mem {source : String} {offset : Nat} {part rest : List Char}
    {lexemes : List (Lexeme × Span)} (scans : Scans offset part lexemes rest) (ended : rest = [])
    {before skipped : List Char} (split : source.toList = before ++ skipped ++ part)
    (start : offset = byteLength before + byteLength skipped) (skips : Skipped skipped part) :
    ∀ gap ∈ gapsFrom (byteLength before) source.utf8ByteSize lexemes, gap.Within source ∧
      Skipped (gap.slice source).toList
        ((⟨gap.stop, source.utf8ByteSize⟩ : Span).slice source).toList := by
  induction scans generalizing before skipped with
  | @done offset rest =>
      intro gap member
      have size : source.utf8ByteSize = byteLength before + byteLength skipped := by
        rw [← byteLength_toList, split, List.append_nil, byteLength_append]
      have last := skipped_slice split skips
      obtain rfl : gap = ⟨byteLength before, byteLength before + byteLength skipped⟩ := by
        rw [← size]
        exact List.mem_singleton.mp member
      exact last
  | @gap offset c cs part rest lexemes piece _ ih =>
      subst ended
      rw [List.append_nil] at piece
      have further : source.toList = before ++ (skipped ++ c :: cs) ++ part := by
        rw [split]
        simp
      refine ih rfl further ?_ ?_
      · rw [start, byteLength_append, Nat.add_assoc]
      · exact skips.append (.of_gap piece)
  | @lexeme offset c cs part rest l lexemes piece _ ih =>
      intro gap member
      subst start
      rcases List.mem_cons.mp member with rfl | later
      · exact skipped_slice split skips
      · have further : source.toList = before ++ skipped ++ c :: cs ++ [] ++ part := by
          rw [split]
          simp
        have bytes : byteLength before + byteLength skipped + byteLength (c :: cs) =
            byteLength (before ++ skipped ++ c :: cs) := by
          rw [byteLength_append, byteLength_append]
        refine ih ended further ?_ .nil gap ?_
        · rw [bytes, byteLength_nil, Nat.add_zero]
        · rwa [← bytes]

/-- Lexemes tile a source. When a scan succeeds, the spans of the lexemes are not empty, have their
ends in the source and between its characters, and stand one behind the other; the text of each of
them scans by itself to that lexeme alone; and the text before, between and behind them is white
space and comments. When it fails, the span of the error is not empty and has its ends in the source
and between its characters, and the text before it scans by itself. Where a lexeme stands, one
pattern wins, with the text of the lexeme, and makes the lexeme of it. Where the scan fails, no
pattern matches, or the integer pattern wins and 64 bits do not hold the integer. -/
theorem scan_tiles (source : String) :
    (∀ lexemes, scan source = .ok lexemes →
      (∀ entry ∈ lexemes, entry.2.start < entry.2.stop ∧ entry.2.Within source ∧
        scan (entry.2.slice source) = .ok [(entry.1, ⟨0, entry.2.length⟩)] ∧
        ∃ (p : Pattern) (n : Nat), p.Wins (entry.2.slice source).toList
            ((⟨entry.2.start, source.utf8ByteSize⟩ : Span).slice source).toList ∧
          p.piece (entry.2.slice source).toList = .lexeme entry.1 n ∧
          ∀ (q : Pattern) (text : List Char), q.Wins text
            ((⟨entry.2.start, source.utf8ByteSize⟩ : Span).slice source).toList →
              q = p ∧ text = (entry.2.slice source).toList) ∧
      lexemes.Pairwise (fun first second => first.2.stop ≤ second.2.start) ∧
      ∀ gap ∈ gapsFrom 0 source.utf8ByteSize lexemes, gap.Within source ∧
        Skipped (gap.slice source).toList
          ((⟨gap.stop, source.utf8ByteSize⟩ : Span).slice source).toList) ∧
    ∀ e, scan source = .error e →
      e.span.start < e.span.stop ∧ e.span.Within source ∧
        (∃ lexemes, scan ((⟨0, e.span.start⟩ : Span).slice source) = .ok lexemes) ∧
        let ahead := ((⟨e.span.start, source.utf8ByteSize⟩ : Span).slice source).toList
        Pattern.Unmatched ahead ∨ Pattern.integer.Wins (e.span.slice source).toList ahead ∧
          Number.narrow? (decimalValue (e.span.slice source).toList) = none := by
  constructor
  · intro lexemes scanned
    have scans := (scan_eq_ok_iff source lexemes).mp scanned
    refine ⟨?_, scans.ordered, ?_⟩
    · intro entry member
      obtain ⟨before, c, cs, after, split, span, found⟩ := scans.exists_of_mem member
      rw [Nat.zero_add] at span
      rw [List.append_nil] at found
      have positive := Char.utf8Size_pos c
      have ahead : source.toList = before ++ (c :: cs ++ after) := by
        rw [split, List.append_assoc]
      rw [span, slice_eq_of_toList split, slice_end_of_toList ahead, String.toList_ofList,
        String.toList_ofList]
      refine ⟨?_, within_of_toList split, ?_, ?_⟩
      · simp only [byteLength_cons]
        omega
      · rw [scan_of_next found]
        simp [Span.length]
      · rcases Piece.wins_or_unmatched (by rw [found]; rfl) with ⟨p, wins, piece⟩ | ⟨_, improper⟩
        · exact ⟨p, _, wins, piece.symm.trans found, fun q text other => other.unique wins⟩
        · rw [found] at improper
          cases improper
    · have whole : source.toList = [] ++ [] ++ source.toList := rfl
      exact scans.skipped_of_mem rfl whole rfl .nil
  · intro e failed
    obtain ⟨part, lexemes, c, ds, split, scans, improper, span⟩ := exists_of_scan_error failed
    obtain ⟨as, bs, rfl, taken⟩ := Piece.exists_split c ds
    have here : source.toList = part ++ c :: as ++ bs := by
      rw [split]
      simp
    have ends : e.span = ⟨byteLength part, byteLength part + byteLength (c :: as)⟩ := by
      rw [span, taken]
      simp [spanOf]
    have before : (⟨0, byteLength part⟩ : Span).slice source = String.ofList part := by
      have whole : source.toList = [] ++ part ++ c :: (as ++ bs) := split
      have slice := slice_eq_of_toList whole
      rwa [byteLength_nil, Nat.zero_add] at slice
    have positive := Char.utf8Size_pos c
    rw [ends, before]
    refine ⟨?_, within_of_toList here, ⟨lexemes, ?_⟩, ?_⟩
    · simp only [byteLength_cons]
      omega
    · rw [scan_eq_ok_iff, String.toList_ofList]
      exact Scans.cut scans
    · rw [slice_eq_of_toList here, slice_end_of_toList split, String.toList_ofList,
        String.toList_ofList]
      rcases Piece.wins_or_unmatched taken with ⟨p, wins, piece⟩ | ⟨none, _⟩
      · rw [piece] at improper
        obtain ⟨rfl, beyond⟩ := Pattern.eq_integer_of_isProper_eq_false wins.matched improper
        exact .inr ⟨wins, beyond⟩
      · exact .inl none

/-- A number that runs into a name, a comment before a text of two-byte characters, and a name that
starts like a number; and a text that is not closed. -/
theorem scan_tiles_adjacent :
    let source := "7ab%é\n(é)-5-3 "
    let lexemes : List (Lexeme × Span) :=
      [(.int 7, ⟨0, 1⟩), (.name "ab", ⟨1, 3⟩), (.text "é", ⟨7, 11⟩), (.name "-5-3", ⟨11, 15⟩)]
    let e : SourceError := ⟨.unexpectedInput "\"é", ⟨4, 7⟩⟩
    scan source = .ok lexemes ∧
      lexemes.Pairwise (fun first second => first.2.stop ≤ second.2.start) ∧
      scan ((⟨7, 11⟩ : Span).slice source) = .ok [(.text "é", ⟨0, 4⟩)] ∧
      (∃ (p : Pattern) (n : Nat), p.Wins ((⟨11, 15⟩ : Span).slice source).toList
          ((⟨11, 16⟩ : Span).slice source).toList ∧
        p.piece ((⟨11, 15⟩ : Span).slice source).toList = .lexeme (.name "-5-3") n) ∧
      (⟨3, 7⟩ : Span).Within source ∧
      scan "1e+ \"é\\" = .error e ∧ e.span.Within "1e+ \"é\\" ∧
      ∃ found, scan ((⟨0, 4⟩ : Span).slice "1e+ \"é\\") = .ok found := by
  intro source lexemes e
  have scanned : scan "7ab%é\n(é)-5-3 " = .ok [(.int 7, ⟨0, 1⟩), (.name "ab", ⟨1, 3⟩),
    (.text "é", ⟨7, 11⟩), (.name "-5-3", ⟨11, 15⟩)] := by rfl
  have failed : scan "1e+ \"é\\" = .error e := by rfl
  obtain ⟨entries, ordered, gaps⟩ := (scan_tiles source).1 lexemes scanned
  obtain ⟨-, -, -, p, n, wins, made, -⟩ := entries (.name "-5-3", ⟨11, 15⟩) (by simp [lexemes])
  obtain ⟨-, ends, before, -⟩ := (scan_tiles "1e+ \"é\\").2 e failed
  exact ⟨scanned, ordered, (entries (.text "é", ⟨7, 11⟩) (by simp [lexemes])).2.2.1,
    ⟨p, n, wins, made⟩, (gaps ⟨3, 7⟩ (by simp [lexemes, gapsFrom])).1, failed, ends, before⟩

end Lexeme

end Stacklet
