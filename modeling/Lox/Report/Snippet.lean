/-
This file shows an error with the lines of the source that it is about.
-/

import Lox.Report.Notice
import Lox.Text.Blank
import Lox.Text.Width

namespace Lox.Report

open Text (Line byteLength)

/-- A cell is a character of a line with its byte offset in the line and its columns. -/
structure Cell where
  offset : Nat
  char : Char
  width : Nat

/-- The cells of characters that start at an offset and at a column. -/
def cells (offset column : Nat) : List Char → List Cell
  | [] => []
  | c :: cs =>
      let width := Text.widthAt column c
      ⟨offset, c, width⟩ :: cells (offset + c.utf8Size) (column + width) cs

/-- A tab is shown as spaces. -/
def Cell.text (cell : Cell) : List Char :=
  if cell.char = '\t' then List.replicate cell.width ' ' else [cell.char]

/-- The characters that end no line of a snippet. -/
def isLineEnd (c : Char) : Bool := c = '\n' || c = '\r' || c = '\x00'

/-- A line is shown without the breaks at its end. -/
def visible (line : Line) : List Char :=
  (line.chars.reverse.dropWhile isLineEnd).reverse

/-- The number of bytes of white space that a text starts with. -/
def indentation (cs : List Char) : Nat := byteLength (cs.takeWhile Text.isBlank)

/-- The part that a line has in the marking of a span: it holds the whole span, its first
offset, none of its ends or its last offset, or it lies outside. -/
inductive Part where
  | whole (start stop : Nat)
  | first (start : Nat)
  | inside
  | last (stop : Nat)
  | outside

/-- A row shows a line with a number. -/
structure Row where
  number : Nat
  chars : List Char
  part : Part

/-- The layout of a snippet depends on the width of its line numbers. -/
def margin (width : Nat) : List Char := List.replicate width ' ' ++ [' ']

/-- The number of a line stands at the right of its margin. -/
def numbered (width number : Nat) : List Char :=
  let digits := Nat.toDigits 10 number
  List.replicate (width - digits.length) ' ' ++ digits ++ [' ']

/-- A span that starts in the white space before a line is opened in the gutter. -/
def opensInGutter (chars : List Char) (start : Nat) : Bool := start ≤ indentation chars

/-- The gutter to the left of the text of a row. -/
def Row.gutter (row : Row) : List Char :=
  match row.part with
  | .whole _ _ => []
  | .first start => if opensInGutter row.chars start then [' ', '╭'] else [' ', ' ']
  | .inside | .last _ => [' ', '│']
  | .outside => [' ', ' ']

/-- The gutter to the left of left out lines that follow a row. -/
def Row.gutterBelow (row : Row) : List Char :=
  match row.part with
  | .whole _ _ => []
  | .inside | .last _ => [' ', '│']
  | .first _ | .outside => [' ', ' ']

/-- The end of a line counts as a character of one column. -/
def cellsToEnd (chars : List Char) : List Cell :=
  cells 0 0 chars ++ [⟨byteLength chars, '\x00', 1⟩]

/-- A cell is underlined by carets if it overlaps the span, and by spaces before the span
ends. -/
def Cell.caret (start stop : Nat) (cell : Cell) : List Char :=
  if max start cell.offset < min stop (cell.offset + cell.char.utf8Size) then
    List.replicate cell.width '^'
  else if cell.offset < stop then List.replicate cell.width ' '
  else []

/-- A line that leads to a caret passes under the cells before an offset. -/
def lead (chars : List Char) (stop : Nat) : List Char :=
  ((cells 0 0 chars).takeWhile fun cell => cell.offset < stop).flatMap fun cell =>
    List.replicate cell.width '─'

/-- The rows below a line that mark the ends of the span. -/
def Row.marks (width : Nat) (row : Row) : List Char :=
  match row.part with
  | .whole start stop =>
      margin width ++ ['│', ' ']
        ++ (cellsToEnd row.chars).flatMap (Cell.caret start (max stop (start + 1))) ++ ['\n']
  | .first start =>
      if opensInGutter row.chars start then []
      else margin width ++ ['│', ' ', '╭'] ++ lead row.chars (start + 1) ++ ['^', '\n']
  | .last stop => margin width ++ ['│', ' ', '╰'] ++ lead row.chars stop ++ ['^', '\n']
  | .inside | .outside => []

def Row.render (width : Nat) (row : Row) : List Char :=
  numbered width row.number ++ ['│'] ++ row.gutter ++ [' ']
    ++ (cells 0 0 row.chars).flatMap Cell.text ++ ['\n'] ++ row.marks width

/-- The number of lines that are shown after the first line of a span. -/
def linesAfterStart : Nat := 3

/-- The number of lines that are shown before the last line of a span. -/
def linesBeforeEnd : Nat := 1

/-- The lines of a source with their numbers. -/
structure Page where
  lines : List Line

namespace Page

def of (source : Source) : Page := ⟨Text.lines 0 source.chars⟩

/-- The number of the line that holds an offset. -/
def numberAt (page : Page) (offset : Nat) : Nat :=
  (page.lines.takeWhile fun line => line.start ≤ offset).length

def line (page : Page) (number : Nat) : Line := page.lines.getD (number - 1) ⟨0, []⟩

def row (page : Page) (number : Nat) (part : Part) : Row :=
  ⟨number, visible (page.line number), part⟩

/-- The column of an offset counts the characters of its line that end at or before it. -/
def columnAt (page : Page) (offset : Nat) : Nat :=
  let line := page.line (page.numberAt offset)
  let ends := (cells line.start 0 line.chars).filter fun cell =>
    cell.offset + cell.char.utf8Size ≤ offset
  ends.length + 1

/-- The rows of a span. A span of many lines shows those next to its ends, and one that ends
on an earlier line shows only its ends. -/
def rows (page : Page) (span : Span) : List Row :=
  let first := page.numberAt span.start
  let last := page.numberAt span.stop
  let start := span.start - (page.line first).start
  let stop := span.stop - (page.line last).start
  if first = last then [page.row first (.whole start stop)]
  else if first < last then
    let between := (List.range' (first + 1) (last - first - 1)).filter fun number =>
      number - first ≤ linesAfterStart || last - number ≤ linesBeforeEnd
    page.row first (.first start) :: between.map (page.row · .inside)
      ++ [page.row last (.last stop)]
  else [page.row last (.last stop), page.row first (.first start)]

/-- A single line that is left out between two rows is shown after all, and more of them are
shown as a break. -/
def gap (page : Page) (span : Span) (width : Nat) (row next : Row) : List Char :=
  if next.number = row.number + 1 then []
  else if next.number = row.number + 2 then
    let part := if span.start ≤ span.stop then .inside else .outside
    (page.row (row.number + 1) part).render width
  else margin width ++ ['·'] ++ row.gutterBelow ++ ['\n']

def renderRows (page : Page) (span : Span) (width : Nat) : List Row → List Char
  | [] => []
  | [row] => row.render width
  | row :: next :: rest =>
      row.render width ++ page.gap span width row next
        ++ renderRows page span width (next :: rest)

end Page

/-- A snippet has a title, the place of the error, its rows and an empty line. -/
def snippet (source : Source) (error : Located Error) : String :=
  let page := Page.of source
  let span := error.span
  let first := page.numberAt span.start
  let last := page.numberAt span.stop
  let width := (Nat.toDigits 10 (max first last)).length
  let rule := if first = last then ['│', '\n'] else ['│', ' ', ' ', '\n']
  s!"error[{error.item.category.text}]: {error.item.message}\n"
    ++ String.ofList (margin width)
    ++ s!"┌─ {source.name}:{first}:{page.columnAt span.start}\n"
    ++ String.ofList
      (margin width ++ rule ++ page.renderRows span width (page.rows span) ++ ['\n'])

end Lox.Report
