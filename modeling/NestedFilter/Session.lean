import NestedFilter.Filter.Outline
import NestedFilter.Filter.Printer
import NestedFilter.Request
import NestedFilter.Text.Backspace

/-!
# Sessions

A session takes lines and answers each: a filter with its query, `:ast` with the tree of a
filter, `:request` with a whole request, `:quit` with the end. An error is shown with the
input under it and carets under the token at fault.

A line goes through three stages. Its bytes have to be a text; the backspaces in it take back what
they take back; and what is left, without the blanks around it, is a command
(`NestedFilter.Session.Command.ofLine`). For a tree or a request the word at the start is enough,
and need not be followed by a blank; for the end it has to be all there is. Nothing is asked of
the filter before the command is answered.

A line that is no text ends the session with a failure, and so does one whose backspaces
cut a character. What was printed up to there stays printed, so the outcome of a session is
both, an output and perhaps a failure (`NestedFilter.Session.Transcript`). A session that starts
with a file of settings fails at once if there are none to be had from it, and then nothing has
been printed.

The place of an error is told in bytes and the carets stand in columns, one for each character
(`NestedFilter.Session.carets`). For a place that lies within a character, or outside of the text,
there are carets as well, though nothing can be said of where they stand.
-/

namespace NestedFilter

namespace Session

/-- What a session says first. -/
def banner : String :=
  "--- es_filter: Filter 到搜索查询编译器 ---\n" ++
    "输入过滤表达式查看编译结果；:ast <filter> 查看 AST，:request <filter> 查看完整请求，:quit 退出\n"

/-! ### Errors with their place -/

/-- The number of characters in the first `offset` bytes of a text; `none` if these end
within a character, or if there are not so many. -/
def column? (cs : List Char) (offset : Nat) : Option Nat :=
  (Text.splitBytes? cs offset).map fun (before, _) => before.length

/-- The number of characters in a stretch of a text, if the stretch lies in it and cuts no
character. -/
def width? (cs : List Char) (span : Span) : Option Nat := do
  let first ← column? cs span.start
  let last ← column? cs span.stop
  if span.start ≤ span.stop then return last - first else none

/-- The carets that stand under a stretch of a text: one for every character, but at least
one. -/
def carets (cs : List Char) (span : Span) : String :=
  let indent := (column? cs span.start).getD span.start
  let width := max ((width? cs span).getD 1) 1
  String.ofList (List.replicate indent ' ' ++ List.replicate width '^')

/-- An error as a session shows it: in words, and below them the input with carets under the place,
if the error tells one. Errors of compilation and of options tell none. -/
def report (input : String) (e : FilterError) : String :=
  let place :=
    match e with
    | .parse e =>
      match e.span? with
      | some span => "  " ++ input ++ "\n  " ++ carets input.toList span ++ "\n"
      | none => ""
    | _ => ""
  "✗ " ++ e.message ++ "\n" ++ place

/-! ### Commands -/

/-- What a line asks for. -/
inductive Command where
  /-- Nothing. -/
  | nothing
  /-- The end of the session. -/
  | quit
  /-- The tree of a filter. -/
  | tree (filter : String)
  /-- A request for the documents that a filter selects. -/
  | request (filter : String)
  /-- The query of a filter. -/
  | query (filter : String)
deriving DecidableEq, Repr, Inhabited

/-- What stands behind a word at the start of a text, without blanks around it. There may be
nothing, which is then what the command is about. -/
def behind? (word : String) (cs : List Char) : Option String :=
  if word.toList.isPrefixOf cs then
    some (String.ofList (Text.trim (cs.drop word.length)))
  else none

/-- What a line asks for. -/
def Command.ofLine (line : List Char) : Command :=
  let cs := Text.trim line
  if cs.isEmpty then .nothing
  else if cs = ":quit".toList ∨ cs = ":q".toList then .quit
  else match behind? ":ast" cs with
    | some filter => .tree filter
    | none =>
      match behind? ":request" cs with
      | some filter => .request filter
      | none => .query (String.ofList cs)

/-- The answer to a command. A tree is shown as an outline with the canonical text behind it,
queries and requests as JSON values over several lines. -/
def answer (settings : Settings) : Command → String
  | .nothing | .quit => ""
  | .tree filter =>
    match Filter.parse filter with
    | .ok f => f.outline.render ++ "\n规范形式: " ++ f.toText ++ "\n"
    | .error e => report filter (.parse e)
  | .request filter =>
    match Request.build settings (some filter) {} with
    | .ok request => request.toJson.pretty ++ "\n"
    | .error e => report filter e
  | .query filter =>
    match Query.ofText settings filter with
    | .ok query => query.toJson.pretty ++ "\n"
    | .error e => report filter e

/-! ### Lines -/

/-- The bytes of each line. What follows the last line end is a line if there is any. -/
def lines (bytes : List UInt8) : List (List UInt8) :=
  bytes.foldr (fun b rest =>
    if b = 10 then [] :: rest
    else match rest with
      | [] => [[b]]
      | line :: more => (b :: line) :: more) []

/-- Why a session fails. -/
inductive Failure where
  /-- There are no settings to start with. -/
  | settings (e : SettingsError)
  /-- A line is no text. -/
  | line
  /-- A backspace in a line cuts a character. -/
  | backspace
deriving DecidableEq, Repr, Inhabited

/-- The failure in words. -/
def Failure.message : Failure → String
  | .settings e => e.message
  | .line => "读取输入失败"
  | .backspace => "a backspace cuts a character"

/-- The status that a failed session ends with. -/
def Failure.code : Failure → Nat
  | .settings _ | .line => 1
  | .backspace => 101

/-- What a session leaves behind. A failure does not undo what was printed before it. -/
structure Transcript where
  /-- All that was printed. -/
  output : String
  /-- What the session failed by, if it failed. -/
  failure : Option Failure
deriving DecidableEq, Repr, Inhabited

/-- The status that the session ends with: zero if nothing failed. -/
def Transcript.code (t : Transcript) : Nat :=
  (t.failure.map Failure.code).getD 0

/-- The answers to lines, up to the one that ends the session. That one is the command for the end,
or a line that can not be read. -/
def answerLines (settings : Settings) : List (List UInt8) → Transcript
  | [] => ⟨"", none⟩
  | line :: rest =>
    match String.fromUTF8? ⟨line.toArray⟩ with
    | none => ⟨"", some .line⟩
    | some text =>
      match Text.applyBackspaces? text.toList with
      | none => ⟨"", some .backspace⟩
      | some line =>
        match Command.ofLine line with
        | .quit => ⟨"", none⟩
        | command =>
          let more := answerLines settings rest
          { more with output := answer settings command ++ more.output }

/-- A session with the given settings over all its input. -/
def run (settings : Settings) (input : ByteArray) : Transcript :=
  let answers := answerLines settings (lines input.toList)
  { answers with output := banner ++ answers.output }

/-- A session over all its input, with the settings of a file if a file is named: its path
and what was found there. Without settings nothing is printed. -/
def start (file : Option (String × FileContent)) (input : ByteArray) : Transcript :=
  match file with
  | none => run {} input
  | some (path, content) =>
    match Settings.load path content with
    | .ok settings => run settings input
    | .error e => ⟨"", some (.settings e)⟩

end Session

end NestedFilter
