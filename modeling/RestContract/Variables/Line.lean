-- Logical lines of a file of variables. A quoted value may run over several lines, so
-- a logical line ends where a line ends outside of quotes. A comment reaches to the end
-- of its line.
import RestContract.Text.Blank

namespace RestContract.Variables

/-- Where in a logical line a reader stands. -/
inductive LinePlace where
  /-- Behind a character that is no blank. -/
  | text
  /-- Behind a blank that follows a character which is none; a comment may begin. -/
  | blank
  /-- Behind a backslash. -/
  | escape
  | single
  | singleEscape
  | double
  | doubleEscape
  deriving DecidableEq, Repr

/-- The place behind one more character; nothing where a comment begins. -/
def LinePlace.next? : LinePlace → Char → Option LinePlace
  | blank, '#' => none
  | text, '\\' | blank, '\\' => some escape
  | text, '"' | blank, '"' => some double
  | text, '\'' | blank, '\'' => some single
  | text, c => some (if Text.isBlank c && c != '\n' && c != '\r' then blank else text)
  | blank, _ => some text
  | escape, _ => some text
  | double, c => some (match c with
    | '\\' => doubleEscape
    | '"' => text
    | _ => double)
  | doubleEscape, _ => some double
  | single, c => some (match c with
    | '\\' => singleEscape
    | '\'' => text
    | _ => single)
  | singleEscape, _ => some single

/-- The characters of a line in front of a comment, and the place behind them; no place if
a comment ends the line. -/
def scanLine : LinePlace → List Char → List Char × Option LinePlace
  | place, [] => ([], some place)
  | place, c :: cs =>
    match place.next? c with
    | none => ([], none)
    | some p =>
      let (kept, last) := scanLine p cs
      (c :: kept, last)

/-- The line without the break at its end. -/
def dropBreak (line : List Char) : List Char :=
  if line.getLast? == some '\n' then
    let line := line.dropLast
    if line.getLast? == some '\r' then line.dropLast else line
  else line

def isComment (line : List Char) : Bool := (line.dropWhile Text.isBlank).head? == some '#'

/-- The logical lines of lines with their breaks, given what has been read of the first
one. A line that is no text, and an end inside of a logical line, is a fault, after which
there are no more lines. -/
def gather (start : List Char) (place : LinePlace) :
    List (Option (List Char)) → List (Option (List Char))
  | [] => if place == .text then [] else [none]
  | none :: _ => [none]
  | some line :: rest =>
    if isComment (start ++ line) then some [] :: gather [] .text rest
    else match scanLine place line with
      | (kept, none) => some (start ++ kept) :: gather [] .text rest
      | (_, some .text) => some (dropBreak (start ++ line)) :: gather [] .text rest
      | (_, some place) => gather (start ++ line) place rest

/-- The lines of some bytes, each with its break. -/
def byteLines : List UInt8 → List (List UInt8)
  | [] => []
  | b :: bs =>
    if b == 10 then [b] :: byteLines bs
    else match byteLines bs with
      | [] => [[b]]
      | line :: rest => (b :: line) :: rest

/-- The bytes without the mark that some editors put in front. -/
def dropMark : List UInt8 → List UInt8
  | 0xEF :: 0xBB :: 0xBF :: bs => bs
  | bs => bs

/-- The logical lines of a file. -/
def logicalLines (content : ByteArray) : List (Option (List Char)) :=
  gather [] .text <|
    (byteLines (dropMark content.toList)).map fun line =>
      (String.fromUTF8? ⟨line.toArray⟩).map String.toList

end RestContract.Variables
