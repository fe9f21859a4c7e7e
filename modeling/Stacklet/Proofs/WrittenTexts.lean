import Stacklet.Proofs.SourceTiling

set_option autoImplicit false
set_option relaxedAutoImplicit false

/-!
Writing texts. Between delimiters a backslash and the delimiters themselves are written behind a
backslash, three control characters can be, and any other character stands for itself. Where the
scan looks for the end of a text and where the escapes are taken back, the same characters count as
escapes, so whatever a text holds it is read from each way to write it.
-/

namespace Stacklet.Lexeme

namespace Delimiter

/-- Control characters with the letters that can stand for them behind a backslash. -/
def shorthands : List (Char × Char) := [('\n', 'n'), ('\t', 't'), ('\r', 'r')]

/-- How the characters of a text can be written between delimiters, each in one of its ways. -/
inductive Writes (d : Delimiter) : (text written : List Char) → Prop
  | done : Writes d [] []
  | backslash {text written : List Char} :
      Writes d text written → Writes d ('\\' :: text) ('\\' :: '\\' :: written)
  | mark {c : Char} {text written : List Char} :
      c ∈ d.marks → Writes d text written → Writes d (c :: text) ('\\' :: c :: written)
  | shorthand {c letter : Char} {text written : List Char} :
      (c, letter) ∈ shorthands → Writes d text written →
        Writes d (c :: text) ('\\' :: letter :: written)
  | verbatim {c : Char} {text written : List Char} :
      c ≠ '\\' → c ∉ d.marks → Writes d text written → Writes d (c :: text) (c :: written)

def enclose : Delimiter → String → String
  | .quote, inner => "\"" ++ inner ++ "\""
  | .paren, inner => "(" ++ inner ++ ")"

theorem toList_enclose (d : Delimiter) (inner : String) :
    (d.enclose inner).toList = d.opening :: (inner.toList ++ [d.closing]) := by
  cases d <;> simp [enclose, opening, closing]

theorem escaped?_of_mem_marks {d : Delimiter} {c : Char} (mark : c ∈ d.marks) :
    escaped? c = some c := by
  cases d <;> simp only [marks, List.mem_cons, List.not_mem_nil, or_false] at mark
  · subst mark
    rfl
  · rcases mark with rfl | rfl <;> rfl

theorem escaped?_of_mem_shorthands {c letter : Char} (listed : (c, letter) ∈ shorthands) :
    escaped? letter = some c := by
  simp only [shorthands, List.mem_cons, Prod.mk.injEq, List.not_mem_nil, or_false] at listed
  rcases listed with ⟨rfl, rfl⟩ | ⟨rfl, rfl⟩ | ⟨rfl, rfl⟩ <;> rfl

/-- Behind a backslash a newline stands for nothing. -/
theorem ne_newline_of_escaped? {e c : Char} (stands : escaped? e = some c) : e ≠ '\n' := by
  rintro rfl
  cases stands

theorem unescape_escape {e c : Char} (stands : escaped? e = some c) (cs : List Char) :
    unescape ('\\' :: e :: cs) = c :: unescape cs := by
  rw [unescape, stands]

theorem unescape_verbatim {c : Char} (other : c ≠ '\\') (cs : List Char) :
    unescape (c :: cs) = c :: unescape cs := by
  rw [unescape]
  exact fun _ _ same _ => other same

namespace Writes

variable {d : Delimiter} {text written : List Char}

/-- Whichever way it is taken, a character is written behind a backslash by one that stands for it,
or as itself if it is plain. -/
theorem induction {motive : List Char → List Char → Prop} (writes : d.Writes text written)
    (done : motive [] [])
    (escape : ∀ {c e : Char} {text written : List Char}, escaped? e = some c →
      motive text written → motive (c :: text) ('\\' :: e :: written))
    (plain : ∀ {c : Char} {text written : List Char}, d.isPlain c = true →
      motive text written → motive (c :: text) (c :: written)) : motive text written := by
  induction writes with
  | done => exact done
  | backslash _ ih => exact escape rfl ih
  | mark member _ ih => exact escape (escaped?_of_mem_marks member) ih
  | shorthand listed _ ih => exact escape (escaped?_of_mem_shorthands listed) ih
  | verbatim other unmarked _ ih => exact plain ((d.isPlain_iff _).mpr ⟨other, unmarked⟩) ih

theorem mem_star (writes : d.Writes text written) : written ∈ KStar.kstar d.unit := by
  refine writes.induction (motive := fun _ written => written ∈ KStar.kstar d.unit) ?_ ?_ ?_
  · exact Language.nil_mem_kstar _
  · intro c e text written stands ih
    exact append_mem_star (mem_unit.mpr (.inr ⟨e, ne_newline_of_escaped? stands, rfl⟩)) ih
  · intro c text written plain ih
    exact append_mem_star (mem_unit.mpr (.inl ⟨c, plain, rfl⟩)) ih

theorem unescape_eq (writes : d.Writes text written) : unescape written = text := by
  refine writes.induction (motive := fun text written => unescape written = text) rfl ?_ ?_
  · intro c e text written stands ih
    rw [unescape_escape stands, ih]
  · intro c text written plain ih
    rw [unescape_verbatim ((d.isPlain_iff c).mp plain).1, ih]

theorem ofText_append_closing (writes : d.Writes text written) (rest : List Char) :
    Piece.ofText d (written ++ d.closing :: rest) =
      .lexeme (.text (String.ofList text)) (written.length + 2) := by
  have body := body_append_of_mem_star writes.mem_star rest
  simp [Piece.ofText, body, writes.unescape_eq]

end Writes

theorem writes_self {d : Delimiter} {text : List Char} (plain : ∀ c ∈ text, d.isPlain c = true) :
    d.Writes text text := by
  induction text with
  | nil => exact .done
  | cons c text ih =>
      obtain ⟨here, later⟩ := List.forall_mem_cons.mp plain
      obtain ⟨other, unmarked⟩ := (d.isPlain_iff c).mp here
      exact .verbatim other unmarked (ih later)

theorem exists_writes (d : Delimiter) (text : List Char) : ∃ written, d.Writes text written := by
  induction text with
  | nil => exact ⟨[], .done⟩
  | cons c text ih =>
      obtain ⟨written, writes⟩ := ih
      by_cases backslash : c = '\\'
      · subst backslash
        exact ⟨_, .backslash writes⟩
      · by_cases mark : c ∈ d.marks
        · exact ⟨_, .mark mark writes⟩
        · exact ⟨_, .verbatim backslash mark writes⟩

end Delimiter

/-- Every text can be written in either form, and each way to write it is scanned to that text and
nothing else, over the whole source. -/
theorem written_text_reads_back (d : Delimiter) (s : String) :
    (∃ inner : String, d.Writes s.toList inner.toList) ∧
    ∀ inner : String, d.Writes s.toList inner.toList →
      scan (d.enclose inner) = .ok [(.text s, ⟨0, (d.enclose inner).utf8ByteSize⟩)] := by
  constructor
  · obtain ⟨written, writes⟩ := d.exists_writes s.toList
    exact ⟨String.ofList written, by rwa [String.toList_ofList]⟩
  · intro inner writes
    have characters := d.toList_enclose inner
    have found : Piece.next d.opening (inner.toList ++ [d.closing] ++ []) =
        .lexeme (.text s) ((inner.toList ++ [d.closing]).length + 1) := by
      rw [List.append_nil, d.next_opening, writes.ofText_append_closing [], String.ofList_toList]
      simp
    have scanned := scan_of_next found
    rwa [← characters, String.ofList_toList, byteLength_toList] at scanned

/-- A backslash before a delimiter, a newline left and a tab replaced, and a two-byte character, in
both forms. -/
theorem written_text_reads_back_mixed :
    let s := "\\\")\n\té"
    let quoted := "\\\\\\\")\n\\té"
    let parenthesized := "\\\\\"\\)\\n\té"
    Delimiter.quote.Writes s.toList quoted.toList ∧
      scan "\"\\\\\\\")\n\\té\"" = .ok [(.text s, ⟨0, 12⟩)] ∧
      Delimiter.paren.Writes s.toList parenthesized.toList ∧
      scan "(\\\\\"\\)\\n\té)" = .ok [(.text s, ⟨0, 12⟩)] := by
  intro s quoted parenthesized
  have quotes : Delimiter.quote.Writes s.toList quoted.toList := by
    simp only [s, quoted, String.reduceToList]
    exact .backslash (.mark (by decide) (.verbatim (by decide) (by decide)
      (.verbatim (by decide) (by decide) (.shorthand (by decide)
        (.verbatim (by decide) (by decide) .done)))))
  have encloses : Delimiter.paren.Writes s.toList parenthesized.toList := by
    simp only [s, parenthesized, String.reduceToList]
    exact .backslash (.verbatim (by decide) (by decide) (.mark (by decide)
      (.shorthand (by decide) (.verbatim (by decide) (by decide)
        (.verbatim (by decide) (by decide) .done)))))
  exact ⟨quotes, (written_text_reads_back .quote s).2 quoted quotes, encloses,
    (written_text_reads_back .paren s).2 parenthesized encloses⟩

end Stacklet.Lexeme
