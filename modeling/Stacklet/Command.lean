import Stacklet.FileFault
import Stacklet.Lexeme.Numeral
import Stacklet.Session
import Stacklet.Session.Lines
import Stacklet.Token.Data

set_option autoImplicit false
set_option relaxedAutoImplicit false

/-!
The command line: running a file or an argument, showing what a file is read as, and sessions.
-/

namespace Stacklet

structure RunOptions where
  lexical : Bool
  limit : Nat
  showStack : Bool

namespace RunOptions

def default : RunOptions := ⟨false, Interpreter.defaultLimit, false⟩

def settings (o : RunOptions) : Settings := ⟨if o.lexical then .lexical else .dynamic, o.limit⟩

end RunOptions

inductive Command where
  | run (path : String) (options : RunOptions)
  | eval (source : String) (options : RunOptions)
  | dumpProgram (path : String)
  | dumpLexemes (path : String)
  | repl (options : RunOptions)

abbrev FileContent := Except FileFault ByteArray

structure Report where
  code : UInt32
  transcript : Transcript

namespace Command

/-- The value of an option that takes a number of 64 bits: digits, perhaps after a plus sign. -/
def number? (word : String) : Option Nat :=
  let digits := if word.toList.head? = some '+' then word.toList.drop 1 else word.toList
  let value := Lexeme.digitsValue digits
  if digits ≠ [] ∧ digits.all Char.isDigit ∧ value < Nat.pow 2 64 then some value else none

def after? (start word : String) : Option String :=
  if start.toList.isPrefixOf word.toList then
    some (String.ofList (word.toList.drop start.toList.length))
  else none

/-- Whether a word is an option by its look: a dash alone is not. -/
def isOption (word : String) : Bool :=
  word ≠ "-" && (after? "-" word).isSome

/-- Reads options and other words, in any order; `words` holds the other words so far, the last
one first. After two dashes there are no more options. -/
def readOptions (o : RunOptions) (words : List String) :
    List String → Option (RunOptions × List String)
  | [] => some (o, words.reverse)
  | "--" :: rest => some (o, words.reverse ++ rest)
  | "--lexical" :: rest => readOptions { o with lexical := true } words rest
  | "--show-stack" :: rest => readOptions { o with showStack := true } words rest
  | "--max-depth" :: value :: rest =>
      match number? value with
      | some n => readOptions { o with limit := n } words rest
      | none => none
  | word :: rest =>
      match (after? "--max-depth=" word).map number? with
      | some (some n) => readOptions { o with limit := n } words rest
      | some none => none
      | none =>
          if isOption word then none else readOptions o (word :: words) rest

/-- Reads words where there are no options. Two dashes make words of all that follow them. -/
def readWords : List String → Option (List String)
  | [] => some []
  | "--" :: rest => some rest
  | word :: rest => if isOption word then none else (readWords rest).map (word :: ·)

def ofArguments? : List String → Option Command
  | "run" :: rest =>
      match readOptions .default [] rest with
      | some (o, [path]) => some (.run path o)
      | _ => none
  | "eval" :: rest =>
      match readOptions .default [] rest with
      | some (o, [source]) => some (.eval source o)
      | _ => none
  | "parse" :: rest =>
      match readWords rest with
      | some [path] => some (.dumpProgram path)
      | _ => none
  | "tokens" :: rest =>
      match readWords rest with
      | some [path] => some (.dumpLexemes path)
      | _ => none
  | "repl" :: rest =>
      match readOptions .default [] rest with
      | some (o, []) => some (.repl o)
      | _ => none
  | _ => none

def success (output : String) : Report := ⟨0, ⟨output, []⟩⟩

def failure (output : String) (notices : List Notice) (message : String) : Report :=
  ⟨1, ⟨output, notices ++ [.line ("Error: " ++ message)]⟩⟩

def rejected (source : String) (e : SourceError) : Report :=
  failure "" [.report source e] e.display

def withText (content : FileContent) (next : String → Report) : Report :=
  match content with
  | .error fault => failure "" [] fault.message
  | .ok content =>
      match String.fromUTF8? content with
      | some source => next source
      | none => failure "" [] "stream did not contain valid UTF-8"

def runProgram (options : RunOptions) (source : String) : Report :=
  match Token.ofSource source with
  | .error e => rejected source e
  | .ok tokens =>
      let (outcome, i) := (Interpreter.create options.settings).execute tokens
      let (printed, i) := i.takeOutput
      let output :=
        printed ++ (if options.showStack then "stack: " ++ i.stackListing ++ "\n" else "")
      match outcome with
      | .ok _ => success output
      | .error e => failure output [] e.display

def showProgram (source : String) : Report :=
  match Token.ofSource source with
  | .error e => rejected source e
  | .ok tokens => success ((Token.programData tokens).pretty ++ "\n")

def showLexemes (source : String) : Report :=
  match Lexeme.scan source with
  | .error e => rejected source e
  | .ok lexemes =>
      success (String.join (lexemes.map fun (l, span) =>
        l.describe ++ " @ " ++ span.render ++ "\n"))

def holdSession (options : RunOptions) (lines : List String) : Report :=
  ⟨0, Session.converse (Interpreter.create options.settings) ⟨Session.banner, []⟩ lines⟩

def misused : Report :=
  ⟨2, ⟨"", [.line "usage: pscript run|eval|parse|tokens|repl [options] [argument]"]⟩⟩

def perform (files : String → FileContent) (lines : List String) : Command → Report
  | .run path options => withText (files path) (runProgram options)
  | .eval source options => runProgram options source
  | .dumpProgram path => withText (files path) showProgram
  | .dumpLexemes path => withText (files path) showLexemes
  | .repl options => holdSession options lines

end Command

end Stacklet
