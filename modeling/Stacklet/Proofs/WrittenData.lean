import Stacklet.Token.Data
import Stacklet.Proofs.PrintedCode

set_option autoImplicit false
set_option relaxedAutoImplicit false

/-!
Data on one line is determined by its text. A text that begins with that of some data determines the
data and what comes after it: escapes keep the quotes and backslashes in a string apart from those
around it, and an integer goes on to the first character that no integer has. Reals are left out,
since their texts are rounded; programs without reals that are written alike are the same.
-/

namespace Stacklet

namespace Json

inductive RealFree : Json → Prop
  | int (n : Int64) : RealFree (.int n)
  | bool (b : Bool) : RealFree (.bool b)
  | string (s : String) : RealFree (.string s)
  | array {items : List Json} : (∀ j ∈ items, RealFree j) → RealFree (.array items)
  | tagged (tag : String) {content : Json} : RealFree content → RealFree (.tagged tag content)

section Strings

def hexValue (c : Char) : Nat := if c.isDigit then c.toNat - '0'.toNat else c.toNat - 'a'.toNat + 10

/-- The character that stands first in the rest of a string, escaped or not; none at its end. -/
def leading? : List Char → Option Char
  | '\\' :: 'b' :: _ => some '\x08'
  | '\\' :: 't' :: _ => some '\t'
  | '\\' :: 'n' :: _ => some '\n'
  | '\\' :: 'f' :: _ => some '\x0c'
  | '\\' :: 'r' :: _ => some '\r'
  | '\\' :: 'u' :: _ :: _ :: high :: low :: _ =>
      some (Char.ofNat (16 * hexValue high + hexValue low))
  | '\\' :: c :: _ => some c
  | '"' :: _ => none
  | c :: _ => some c
  | [] => none

@[simp] theorem leading?_quote (rest : List Char) : leading? ('"' :: rest) = none := rfl

theorem hexValue_digitChar (n : Nat) (digit : n < 16) : hexValue n.digitChar = n := by
  revert n
  decide

theorem toList_controlEscape (n : Nat) (control : n < 32) :
    ((if n < 16 then "\\u000" else "\\u00") ++ Text.hex n).toList =
      ['\\', 'u', '0', '0', (n / 16).digitChar, (n % 16).digitChar] := by
  revert n
  decide

@[simp] theorem leading?_escapedChar (c : Char) (rest : List Char) :
    leading? ((escapedChar c).toList ++ rest) = some c := by
  unfold escapedChar
  iterate 7
    split
    · rename_i same
      subst same
      rfl
  rename_i backslash _ _ _ _ _
  split
  · rename_i control
    have high := hexValue_digitChar (c.toNat / 16) (by omega)
    have low := hexValue_digitChar (c.toNat % 16) (by omega)
    rw [toList_controlEscape _ control]
    simp [leading?, high, low, Nat.div_add_mod]
  · simp [leading?, backslash]

def escaped (cs : List Char) : List Char := cs.flatMap fun c => (escapedChar c).toList

/-- A string goes on to the first quote that is not escaped. -/
theorem escaped_append_inj {cs ds r s : List Char}
    (equal : escaped cs ++ '"' :: r = escaped ds ++ '"' :: s) : cs = ds ∧ r = s := by
  induction cs generalizing ds with
  | nil =>
      cases ds with
      | nil => simpa [escaped] using equal
      | cons d ds => simpa [escaped] using congrArg leading? equal
  | cons c cs ih =>
      have first := congrArg leading? equal
      cases ds with
      | nil => simp [escaped] at first
      | cons d ds =>
          obtain rfl : c = d := by simpa [escaped] using first
          have later : escaped cs ++ '"' :: r = escaped ds ++ '"' :: s := by
            simpa [escaped] using equal
          obtain ⟨rfl, rfl⟩ := ih later
          exact ⟨rfl, rfl⟩

theorem toList_stringText (s : String) :
    (stringText s).toList =
      '"' :: (escaped s.toList ++ ['"']) := by
  simp [stringText, escaped, String.toList_join, List.flatMap_map]

theorem stringText_append_inj {s t : String} {cs ds : List Char}
    (equal : (stringText s).toList ++ cs = (stringText t).toList ++ ds) : s = t ∧ cs = ds := by
  simp only [toList_stringText, List.cons_append, List.append_assoc, List.cons.injEq, true_and,
    List.nil_append] at equal
  obtain ⟨same, rest⟩ := escaped_append_inj equal
  exact ⟨String.toList_inj.mp same, rest⟩

end Strings

section Integers

def isNumeric (c : Char) : Bool := c.isDigit || c == '-'

def Stopped (rest : List Char) : Prop := ∀ c ∈ rest.head?, isNumeric c = false

theorem stopped_cons {c : Char} (stops : isNumeric c = false) (rest : List Char) :
    Stopped (c :: rest) := by
  rintro _ ⟨⟩
  exact stops

theorem isNumeric_of_mem_toString {z : Int} {c : Char} (member : c ∈ (toString z).toList) :
    isNumeric c = true := by
  have digit {n : Nat} (inside : c ∈ n.repr.toList) : isNumeric c = true := by
    rw [Nat.toList_repr] at inside
    simp [isNumeric, Nat.isDigit_of_mem_toDigits (by decide) (by decide) inside]
  rw [Int.toString_eq_repr, Int.repr_eq_if] at member
  split at member
  · exact digit member
  · rcases List.mem_append.mp (String.toList_append ▸ member) with sign | inside
    · simp only [String.reduceToList, List.mem_singleton] at sign
      subst sign
      rfl
    · exact digit inside

theorem toString_toInt_inj {m n : Int64}
    (equal : (toString m.toInt).toList = (toString n.toInt).toList) :
    m = n := by
  obtain ⟨c, cs, left, found⟩ := Lexeme.Piece.next_of_int m
  obtain ⟨d, ds, right, found'⟩ := Lexeme.Piece.next_of_int n
  obtain ⟨rfl, rfl⟩ := List.cons.inj (left.symm.trans (equal.trans right))
  rw [found] at found'
  simpa using found'

theorem takeWhile_numeric {cs rest : List Char} (numeric : ∀ c ∈ cs, isNumeric c = true)
    (stopped : Stopped rest) : (cs ++ rest).takeWhile isNumeric = cs := by
  rw [List.takeWhile_append_of_pos numeric]
  cases rest with
  | nil => simp
  | cons c rest => simp [stopped c rfl]

theorem int_append_inj {m n : Int64} {r s : List Char} (left : Stopped r) (right : Stopped s)
    (equal : (toString m.toInt).toList ++ r = (toString n.toInt).toList ++ s) : m = n ∧ r = s := by
  have digits := congrArg (List.takeWhile isNumeric) equal
  rw [takeWhile_numeric (fun _ => isNumeric_of_mem_toString) left,
    takeWhile_numeric (fun _ => isNumeric_of_mem_toString) right] at digits
  obtain rfl := toString_toInt_inj digits
  exact ⟨rfl, List.append_cancel_left equal⟩

end Integers

section Arrays

def remainder : List Json → List Char
  | [] => [']']
  | j :: js => ',' :: (j.compact.toList ++ remainder js)

theorem toList_compact_nil : (Json.array []).compact.toList = ['[', ']'] := by
  simp [compact, compacts]

theorem toList_compact_cons (j : Json) (js : List Json) :
    (Json.array (j :: js)).compact.toList = '[' :: (j.compact.toList ++ remainder js) := by
  suffices joined : ∀ (j : Json), (",".intercalate (compacts (j :: js))).toList ++ [']'] =
      j.compact.toList ++ remainder js by
    simpa [compact] using joined j
  induction js with
  | nil => simp [compacts, remainder]
  | cons k ks ih =>
      intro j
      have later := ih k
      simp only [compacts] at later
      simp [compacts, remainder, ← later]

theorem toList_compact_tagged (tag : String) (content : Json) :
    (Json.tagged tag content).compact.toList =
      '\x7b' :: ((stringText tag).toList ++ ':' :: (content.compact.toList ++ ['\x7d'])) := by
  simp [compact]

theorem stopped_remainder (js : List Json) (rest : List Char) : Stopped (remainder js ++ rest) := by
  cases js with
  | nil => exact stopped_cons rfl rest
  | cons j js => exact stopped_cons rfl _

end Arrays

/-- The kinds of data that the first character of a text tells apart. -/
inductive Shape where
  | int
  | bool
  | string
  | array
  | tagged

def shape? : Json → Option Shape
  | .int _ => some .int
  | .real _ => none
  | .bool _ => some .bool
  | .string _ => some .string
  | .array _ => some .array
  | .tagged _ _ => some .tagged

def leadingShape? : List Char → Option Shape
  | [] => none
  | c :: _ =>
      if isNumeric c then some .int
      else if c = 't' ∨ c = 'f' then some .bool
      else if c = '"' then some .string
      else if c = '[' then some .array
      else if c = '\x7b' then some .tagged
      else none

theorem RealFree.leadingShape?_compact {j : Json} (free : RealFree j) (rest : List Char) :
    leadingShape? (j.compact.toList ++ rest) = j.shape? := by
  cases free with
  | int n =>
      obtain ⟨c, cs, digits, _⟩ := Lexeme.Piece.next_of_int n
      have numeric : isNumeric c = true := isNumeric_of_mem_toString (digits ▸ List.mem_cons_self)
      simp only [compact, digits, List.cons_append, leadingShape?, numeric]
      rfl
  | bool b => cases b <;> rfl
  | string s =>
      rw [compact, toList_stringText]
      rfl
  | @array items _ =>
      cases items with
      | nil =>
          rw [toList_compact_nil]
          rfl
      | cons j js =>
          rw [toList_compact_cons]
          rfl
  | tagged tag _ =>
      rw [toList_compact_tagged]
      rfl

section Determination

/-- Whether some data and what comes after it are determined by the text that they make. -/
def Determined (j : Json) : Prop :=
  ∀ {k : Json} {r s : List Char}, RealFree k → Stopped r → Stopped s →
    j.compact.toList ++ r = k.compact.toList ++ s → j = k ∧ r = s

variable {j k : Json} {js ks : List Json} {r s : List Char}

theorem shape?_eq (left : RealFree j) (right : RealFree k)
    (equal : j.compact.toList ++ r = k.compact.toList ++ s) : j.shape? = k.shape? := by
  rw [← left.leadingShape?_compact r, equal, right.leadingShape?_compact]

theorem RealFree.compact_append_ne (free : RealFree j) :
    j.compact.toList ++ r ≠ ']' :: s := by
  intro equal
  have first := free.leadingShape?_compact r
  rw [equal] at first
  cases free <;> cases first

theorem remainder_append_inj (determined : ∀ j ∈ js, Determined j) (free : ∀ k ∈ ks, RealFree k)
    (equal : remainder js ++ r = remainder ks ++ s) : js = ks ∧ r = s := by
  induction js generalizing ks with
  | nil =>
      cases ks with
      | nil => simpa [remainder] using equal
      | cons k ks => simp [remainder] at equal
  | cons j js ih =>
      cases ks with
      | nil => simp [remainder] at equal
      | cons k ks =>
          obtain ⟨first, others⟩ := List.forall_mem_cons.mp determined
          obtain ⟨first', others'⟩ := List.forall_mem_cons.mp free
          have items : j.compact.toList ++ (remainder js ++ r) =
              k.compact.toList ++ (remainder ks ++ s) := by
            simpa [remainder] using equal
          obtain ⟨rfl, rest⟩ := first first' (stopped_remainder js r) (stopped_remainder ks s) items
          obtain ⟨rfl, rfl⟩ := ih others others' rest
          exact ⟨rfl, rfl⟩

theorem array_append_inj (determined : ∀ j ∈ js, Determined j) (left : ∀ j ∈ js, RealFree j)
    (right : ∀ k ∈ ks, RealFree k)
    (equal : (Json.array js).compact.toList ++ r = (Json.array ks).compact.toList ++ s) :
    js = ks ∧ r = s := by
  cases js with
  | nil =>
      cases ks with
      | nil => simpa [toList_compact_nil] using equal
      | cons k ks =>
          simp only [toList_compact_nil, toList_compact_cons, List.cons_append, List.nil_append,
            List.append_assoc, List.cons.injEq, true_and] at equal
          exact absurd equal.symm (right k (by simp)).compact_append_ne
  | cons j js =>
      cases ks with
      | nil =>
          simp only [toList_compact_nil, toList_compact_cons, List.cons_append, List.nil_append,
            List.append_assoc, List.cons.injEq, true_and] at equal
          exact absurd equal (left j (by simp)).compact_append_ne
      | cons k ks =>
          simp only [toList_compact_cons, List.cons_append, List.append_assoc, List.cons.injEq,
            true_and] at equal
          exact remainder_append_inj determined right (by simpa [remainder] using equal)

theorem RealFree.determined (free : RealFree j) : Determined j := by
  -- The first character settles the kind, and each kind has its own end.
  induction free with
  | int m =>
      intro k r s right stopped stopped' equal
      have alike := shape?_eq (.int m) right equal
      cases right with
      | int n => exact (int_append_inj stopped stopped' equal).imp_left (congrArg _)
      | _ => cases alike
  | bool b =>
      intro k r s right _ _ equal
      have alike := shape?_eq (.bool b) right equal
      cases right with
      | bool c => cases b <;> cases c <;> simp_all [compact]
      | _ => cases alike
  | string t =>
      intro k r s right _ _ equal
      have alike := shape?_eq (.string t) right equal
      cases right with
      | string u => exact (stringText_append_inj equal).imp_left (congrArg _)
      | _ => cases alike
  | array free ih =>
      intro k r s right _ _ equal
      have alike := shape?_eq (.array free) right equal
      cases right with
      | array free' => exact (array_append_inj ih free free' equal).imp_left (congrArg _)
      | _ => cases alike
  | tagged tag free ih =>
      intro k r s right _ _ equal
      have alike := shape?_eq (.tagged tag free) right equal
      cases right with
      | tagged tag' free' =>
          simp only [toList_compact_tagged, List.cons_append, List.append_assoc, List.nil_append,
            List.cons.injEq, true_and] at equal
          obtain ⟨rfl, contents⟩ := stringText_append_inj equal
          obtain ⟨rfl, after⟩ :=
            ih free' (stopped_cons rfl r) (stopped_cons rfl s) (List.cons.inj contents).2
          exact ⟨rfl, (List.cons.inj after).2⟩
      | _ => cases alike

theorem compact_inj (left : RealFree j) (right : RealFree k) (equal : j.compact = k.compact) :
    j = k :=
  (left.determined right (r := []) (s := []) (by simp [Stopped]) (by simp [Stopped])
    (by rw [equal])).1

end Determination

end Json

namespace Token

theorem numberData_inj {m n : Number} (equal : numberData m = numberData n) : m = n := by
  cases m <;> cases n <;> simp_all [numberData]

mutual

theorem data_inj : ∀ {t u : Token}, t.data = u.data → t = u
  | .number m, u, equal => by
      cases u <;> simp [data] at equal ⊢
      exact numberData_inj equal
  | .bool b, u, equal => by cases u <;> simp_all [data]
  | .text s, u, equal => by cases u <;> simp_all [data]
  | .name v, u, equal => by cases u <;> simp_all [data]
  | .define v, u, equal => by cases u <;> simp_all [data]
  | .inline ts, u, equal => by
      cases u <;> simp [data] at equal ⊢
      exact dataAll_inj equal
  | .procedure ts, u, equal => by
      cases u <;> simp [data] at equal ⊢
      exact dataAll_inj equal

theorem dataAll_inj : ∀ {ts us : List Token}, dataAll ts = dataAll us → ts = us
  | [], us, equal => by cases us <;> simp_all [dataAll]
  | t :: ts, us, equal => by
      cases us with
      | nil => simp [dataAll] at equal
      | cons u us =>
          simp only [dataAll, List.cons.injEq] at equal
          rw [data_inj equal.1, dataAll_inj equal.2]

end

def NoReal (ts : List Token) : Prop := ∀ x : Float, ¬ (Token.number (.real x)).Occurs ts

theorem noReal_cons_iff {t : Token} {ts : List Token} :
    NoReal (t :: ts) ↔ NoReal [t] ∧ NoReal ts := by
  simp [NoReal, not_or, forall_and, and_assoc]

theorem noReal_parts {t : Token} (free : NoReal [t]) : NoReal t.parts := by
  intro x occurs
  exact free x (by simp [occurs])

theorem exists_int_of_noReal {n : Number} (free : NoReal [.number n]) : ∃ k, n = .int k := by
  cases n with
  | int k => exact ⟨k, rfl⟩
  | real x => exact absurd (.here (by simp)) (free x)

mutual

theorem realFree_data : ∀ t : Token, NoReal [t] → t.data.RealFree
  | .number n, free => by
      obtain ⟨k, rfl⟩ := exists_int_of_noReal free
      exact .tagged _ (.tagged _ (.int k))
  | .bool b, _ => .tagged _ (.bool b)
  | .text s, _ => .tagged _ (.string s)
  | .name word, _ => .tagged _ (.string word)
  | .define word, _ => .tagged _ (.string word)
  | .inline body, free => .tagged _ (.array (realFree_dataAll body (noReal_parts free)))
  | .procedure body, free => .tagged _ (.array (realFree_dataAll body (noReal_parts free)))

theorem realFree_dataAll : ∀ ts : List Token, NoReal ts → ∀ j ∈ dataAll ts, j.RealFree
  | [], _ => by simp [dataAll]
  | t :: ts, free => by
      obtain ⟨here, later⟩ := noReal_cons_iff.mp free
      exact List.forall_mem_cons.mpr ⟨realFree_data t here, realFree_dataAll ts later⟩

end

mutual

theorem same_iff_eq : ∀ t u : Token, NoReal [t] → NoReal [u] → (t.same u = true ↔ t = u)
  | .number m, u, free, free' => by
      obtain ⟨k, rfl⟩ := exists_int_of_noReal free
      cases u with
      | number n =>
          obtain ⟨l, rfl⟩ := exists_int_of_noReal free'
          simp [same, Number.same]
      | _ => simp [same]
  | .bool b, u, _, _ => by cases u <;> simp [same]
  | .text s, u, _, _ => by cases u <;> simp [same]
  | .name v, u, _, _ => by cases u <;> simp [same]
  | .define v, u, _, _ => by cases u <;> simp [same]
  | .inline ts, u, free, free' => by
      cases u with
      | inline us => simp [same, sameAll_iff_eq ts us (noReal_parts free) (noReal_parts free')]
      | _ => simp [same]
  | .procedure ts, u, free, free' => by
      cases u with
      | procedure us => simp [same, sameAll_iff_eq ts us (noReal_parts free) (noReal_parts free')]
      | _ => simp [same]

theorem sameAll_iff_eq : ∀ ts us : List Token, NoReal ts → NoReal us →
    (sameAll ts us = true ↔ ts = us)
  | [], us, _, _ => by cases us <;> simp [sameAll]
  | t :: ts, us, free, free' => by
      cases us with
      | nil => simp [sameAll]
      | cons u us =>
          obtain ⟨here, later⟩ := noReal_cons_iff.mp free
          obtain ⟨here', later'⟩ := noReal_cons_iff.mp free'
          simp [sameAll, same_iff_eq t u here here', sameAll_iff_eq ts us later later']

end

/-- The text of a program determines it. Two programs without reals, of any depth and with any
strings, are written alike on one line exactly if they are the same, and that is what comparing them
token by token finds. -/
theorem program_determined_by_text (ts us : List Token) (left : NoReal ts) (right : NoReal us) :
    ((programData ts).compact = (programData us).compact ↔ ts = us) ∧
      (sameAll ts us = true ↔ ts = us) := by
  refine ⟨⟨?_, congrArg fun tokens => (programData tokens).compact⟩,
    sameAll_iff_eq ts us left right⟩
  intro equal
  have data : programData ts = programData us :=
    Json.compact_inj (.tagged _ (.array (realFree_dataAll ts left)))
      (.tagged _ (.array (realFree_dataAll us right))) equal
  simp only [programData, listData, Json.tagged.injEq, Json.array.injEq, true_and] at data
  exact dataAll_inj data

/-- A text that holds what is written between two texts, and a name that ends in a backslash; they
differ from two texts, and from the same tokens in brackets of the other kind. -/
theorem program_determined_by_text_lookalikes :
    let body : List Token := [.name "a\\", .number (.int 1)]
    let joined : List Token := [.text "\"\x7d,\x7b\"Text\":\"", .procedure body]
    let apart : List Token := [.text "", .text "", .procedure body]
    let inlined : List Token := [.text "\"\x7d,\x7b\"Text\":\"", .inline body]
    NoReal joined ∧ NoReal apart ∧ NoReal inlined ∧
      (programData joined).compact ≠ (programData apart).compact ∧
      (programData joined).compact ≠ (programData inlined).compact := by
  intro body joined apart inlined
  have first : NoReal joined := by simp [joined, body, NoReal, parts]
  have second : NoReal apart := by simp [apart, body, NoReal, parts]
  have third : NoReal inlined := by simp [inlined, body, NoReal, parts]
  refine ⟨first, second, third, ?_, ?_⟩
  · rw [Ne, (program_determined_by_text joined apart first second).1]
    simp [joined, apart]
  · rw [Ne, (program_determined_by_text joined inlined first third).1]
    simp [joined, inlined]

end Token

end Stacklet
