import Mathlib.Data.List.TakeWhile
import Stacklet.Session
import Stacklet.Session.Lines

set_option autoImplicit false
set_option relaxedAutoImplicit false

/-!
The lines of an input beside the lines of its text. The input is cut after each newline, and its
lines lose their ends; the text is cut at its newlines. White space around a line does not count in
a session, nor does an empty line, so unless the input holds a backspace a session takes both alike.
-/

namespace Stacklet

theorem Text.trim_append_of_isWhite {ws : List Char} (white : ∀ w ∈ ws, isWhite w = true)
    (cs : List Char) : trim (cs ++ ws) = trim cs := by
  have nothing : ws.dropWhile isWhite = [] := List.dropWhile_eq_nil_iff.mpr white
  unfold trim
  rw [List.dropWhile_append]
  split
  · rename_i blank
    rw [nothing, List.isEmpty_iff.mp blank]
  · rw [List.reverse_append, List.dropWhile_append_of_pos (by simpa using white)]

theorem Transcript.append_silent (t : Transcript) : t.append ⟨"", []⟩ = t := by
  simp [append]

namespace Session

def linesIn (source : String) : List String := (source.toList.splitOn '\n').map String.ofList

def content (line : String) : String := String.ofList (Text.trim line.toList)

theorem intercalate_linesIn (source : String) : "\n".intercalate (linesIn source) = source := by
  apply String.toList_injective
  simp [linesIn, String.toList_intercalate, List.intercalate_splitOn]

theorem linesIn_ne_nil (source : String) : linesIn source ≠ [] := by
  simp [linesIn, List.splitOn_ne_nil]

theorem rubOut_of_not_mem {clusters : List (List Char)} (kept : List Char) (lengths : List UInt8)
    (unrubbed : ['\x08'] ∉ clusters) :
    rubOut kept lengths clusters = kept.reverse ++ clusters.flatten := by
  induction clusters generalizing kept lengths with
  | nil => simp [rubOut]
  | cons cluster clusters ih =>
      obtain ⟨here, later⟩ := List.ne_and_not_mem_of_not_mem_cons unrubbed
      simp [rubOut, Ne.symm here, ih _ _ later]

theorem exists_lineEnd (line : List Char) :
    ∃ ending, line = dropLineEnd line ++ ending ∧ ∀ c ∈ ending, Text.isWhite c = true := by
  unfold dropLineEnd
  split
  · rename_i rest shape
    exact ⟨['\r', '\n'], by simpa using congrArg List.reverse shape, List.all_eq_true.mp rfl⟩
  · rename_i rest _ shape
    exact ⟨['\n'], by simpa using congrArg List.reverse shape, List.all_eq_true.mp rfl⟩
  · exact ⟨[], by simp, by simp⟩

theorem content_cleanLine {line : String} (unrubbed : '\x08' ∉ line.toList) :
    content (cleanLine line) = content line := by
  obtain ⟨ending, split, white⟩ := exists_lineEnd line.toList
  have separate : ['\x08'] ∉ Text.clusters (dropLineEnd line.toList) := by
    intro member
    have inside := List.mem_flatten_of_mem member (List.mem_singleton_self '\x08')
    rw [Text.flatten_clusters] at inside
    exact unrubbed (split ▸ List.mem_append_left ending inside)
  have kept : (cleanLine line).toList = dropLineEnd line.toList := by
    rw [cleanLine, rubOut_of_not_mem [] [] separate, Text.flatten_clusters]
    simp
  unfold content
  rw [kept]
  rw [← Text.trim_append_of_isWhite white, ← split]

theorem flatten_splitLines (line cs : List Char) :
    (splitLines line cs).flatten = line.reverse ++ cs := by
  fun_induction splitLines line cs with
  | case1 line empty => simp [List.isEmpty_iff.mp empty]
  | case2 line _ => simp
  | case3 line cs ih => simp [ih]
  | case4 line c cs _ ih => simp [ih]

theorem feed_congr {line line' : String} (same : content line = content line') (i : Interpreter) :
    feed i line = feed i line' := by
  have trimmed : Text.trim line.toList = Text.trim line'.toList := String.ofList_injective same
  unfold feed
  rw [trimmed]

theorem converse_cons_congr {line line' : String} {lines lines' : List String}
    (same : content line = content line')
    (rest : ∀ i written, converse i written lines = converse i written lines')
    (i : Interpreter) (written : Transcript) :
    converse i written (line :: lines) = converse i written (line' :: lines') := by
  rw [converse, converse, feed_congr same, rest]

theorem converse_map_congr {f : String → String} {lines : List String}
    (same : ∀ line ∈ lines, content (f line) = content line) (i : Interpreter)
    (written : Transcript) : converse i written (lines.map f) = converse i written lines := by
  induction lines generalizing i written with
  | nil => rfl
  | cons line lines ih =>
      obtain ⟨here, later⟩ := List.forall_mem_cons.mp same
      exact converse_cons_congr here (fun i written => ih later i written) i written

theorem converse_empty_line (i : Interpreter) (written : Transcript) :
    converse i written [""] = converse i written [] := by
  simp [converse, feed, Text.trim, say, Transcript.append_silent]

/-- A session takes lines with their ends as it takes them without, and a last one that is empty
as none. `line` holds, last character first, the line being read. -/
theorem converse_splitLines {cs head : List Char} {rest : List (List Char)}
    (split : cs.splitOn '\n' = head :: rest) (line : List Char) (i : Interpreter)
    (written : Transcript) :
    converse i written ((splitLines line cs).map String.ofList) =
      converse i written (((line.reverse ++ head) :: rest).map String.ofList) := by
  induction cs generalizing line head rest i written with
  | nil =>
      obtain ⟨rfl, rfl⟩ := List.cons.inj split
      cases line with
      | nil => exact (converse_empty_line i written).symm
      | cons c line => simp [splitLines]
  | cons c cs ih =>
      obtain ⟨next, later, shape⟩ := List.exists_cons_of_ne_nil (List.splitOn_ne_nil '\n' cs)
      rw [List.splitOn_cons_eq_if_modifyHead, shape] at split
      rw [splitLines]
      by_cases newline : c = '\n'
      · rw [if_pos (beq_iff_eq.mpr newline)] at split
        obtain ⟨rfl, rfl⟩ := List.cons.inj split
        have same : content (String.ofList (c :: line).reverse) =
            content (String.ofList (line.reverse ++ [])) := by
          have white : ∀ w ∈ ['\n'], Text.isWhite w = true := List.all_eq_true.mp rfl
          simp [content, newline, Text.trim_append_of_isWhite white]
        rw [if_pos newline]
        exact converse_cons_congr same (ih shape []) i written
      · rw [if_neg (by simpa using newline), List.modifyHead_cons] at split
        obtain ⟨rfl, rfl⟩ := List.cons.inj split
        rw [if_neg newline, ih shape (c :: line)]
        simp

/-- A session takes the lines of an input without backspaces as the lines of its text. -/
theorem converse_linesOf {source : String} (unrubbed : '\x08' ∉ source.toList) (i : Interpreter)
    (written : Transcript) :
    converse i written (linesOf source) = converse i written (linesIn source) := by
  have clean : ∀ line ∈ (splitLines [] source.toList).map String.ofList,
      content (cleanLine line) = content line := by
    intro line member
    obtain ⟨cs, inside, rfl⟩ := List.mem_map.mp member
    apply content_cleanLine
    intro rubbed
    rw [String.toList_ofList] at rubbed
    have whole := List.mem_flatten_of_mem inside rubbed
    rw [flatten_splitLines] at whole
    exact unrubbed whole
  calc converse i written (linesOf source)
      = converse i written (((splitLines [] source.toList).map String.ofList).map cleanLine) := by
        rw [linesOf, List.map_map]
        rfl
    _ = converse i written ((splitLines [] source.toList).map String.ofList) :=
        converse_map_congr clean i written
    _ = converse i written (linesIn source) := by
        obtain ⟨head, rest, split⟩ :=
          List.exists_cons_of_ne_nil (List.splitOn_ne_nil '\n' source.toList)
        rw [converse_splitLines split, linesIn, split]
        rfl

end Session

end Stacklet
