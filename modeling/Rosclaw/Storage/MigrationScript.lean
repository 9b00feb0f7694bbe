/-
The statements of a migration script.

* `Scan` — what the scanner is in: the statement, a comment, or a string;
* `scan` — the loop of `_split_statements`; the statement so far stands in reverse.
-/
import Rosclaw.Lib.Text

namespace Rosclaw.Migrations

/-- `in_line_comment`, `in_block_comment`, or `in_string` with its `string_char`. -/
inductive Scan
  | statement | lineComment | blockComment
  | string (quote : Nat)
deriving DecidableEq

/-- `"".join(current).strip()`, if it is not empty. -/
def finished (current : List Nat) : List PyStr :=
  let statement := (PyStr.mk current.reverse).strip
  if statement.isEmpty then [] else [statement]

def scan : Scan → List Nat → List Nat → List PyStr
  | _, current, [] => finished current
  | .lineComment, current, c :: cs => scan (if c = 10 then .statement else .lineComment) current cs
  | .blockComment, current, c :: cs =>
      match cs with
      | [] => finished current
      | next :: rest =>
          if c = 42 ∧ next = 47 then scan .statement current rest
          else scan .blockComment current (next :: rest)
  | .string quote, current, c :: cs =>
      match cs with
      | [] => finished (c :: current)
      | next :: rest =>
          if c = 92 ∨ c = quote ∧ next = quote then scan (.string quote) (next :: c :: current) rest
          else scan (if c = quote then .statement else .string quote) (c :: current) (next :: rest)
  | .statement, current, c :: cs =>
      match cs with
      | [] => if c = 59 then finished current else finished (c :: current)
      | next :: rest =>
          if c = 45 ∧ next = 45 then scan .lineComment current rest
          else if c = 47 ∧ next = 42 then scan .blockComment current rest
          else if c = 39 ∨ c = 34 then scan (.string c) (c :: current) (next :: rest)
          else if c = 59 then finished current ++ scan .statement [] (next :: rest)
          else scan .statement (c :: current) (next :: rest)

def splitStatements (sql : PyStr) : List PyStr := scan .statement [] sql.codes

end Rosclaw.Migrations
