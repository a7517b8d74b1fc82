import AnnotatedHelp.Model.Document
import AnnotatedHelp.Text.Character

/-!
# Summaries

A summary shows a document as a table with a row for every member, below a line of totals. Columns
are as wide as their widest cell and stand two spaces apart; rows end without blanks.
-/

namespace AnnotatedHelp.Summary

open Text

/-- A row of the table. The last cell is not padded. -/
structure Row where
  /-- The padded cells. -/
  cells : List String
  /-- Where the values of the member come from. -/
  source : String
  deriving DecidableEq, Repr

/-- The headings of the table. -/
def headings : Row := ⟨["Name", "Kind", "Type", "Count"], "Source"⟩

/-- Where the values of a member come from: the flags of its options, or the indices of its
positional arguments. -/
def source (member : Member) : String :=
  if member.isOption then ", ".intercalate member.flags
  else ", ".intercalate ((member.arguments.filterMap (·.index)).map fun index => "#" ++ index.repr)

/-- The row of a member. -/
def row (member : Member) : Row :=
  ⟨[member.name, member.kind.name, member.valueType.name, member.count.text], source member⟩

/-- The widths of the padded columns. -/
def widths (rows : List Row) : List Nat :=
  rows.foldl (fun widths row => List.zipWith (fun width cell => max width cell.length) widths row.cells)
    (headings.cells.map String.length)

/-- A cell filled up with spaces to a width. -/
def pad (width : Nat) (cell : String) : String :=
  cell ++ String.ofList (List.replicate (width - cell.length) ' ')

/-- A row as a line: two spaces before every cell. -/
def line (widths : List Nat) (row : Row) : String :=
  String.join ((List.zipWith pad widths row.cells).map ("  " ++ ·)) ++ "  " ++ row.source

/-- The line of totals. -/
def totals (document : Document) : String :=
  "Members: " ++ document.members.length.repr ++ "  Options: " ++ document.options.length.repr ++
    "  Arguments: " ++ document.positionals.length.repr ++ "\n"

/-- The table below the totals. -/
def table (rows : List Row) : String :=
  let widths := widths rows
  let body := rows.map fun row => String.ofList (trimEnd (line widths row).toList) ++ "\n"
  "\n" ++ line widths headings ++ "\n" ++ String.join body

/-- The summary of a document. A document without members has totals only. -/
def text (document : Document) : String :=
  match document.members with
  | [] => totals document
  | members => totals document ++ table (members.map row)

end AnnotatedHelp.Summary
