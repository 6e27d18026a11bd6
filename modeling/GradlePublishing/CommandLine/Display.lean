import GradlePublishing.Console

/-!
The layout of the console as plain lines, without colours.
-/

namespace GradlePublishing.CommandLine

def colourMarks : List Text :=
  ["[red]", "[/red]", "[yellow]", "[/yellow]", "[blue]", "[/blue]", "[dim]", "[/dim]",
    "[bold green]", "[/]"]

def withoutColoursFrom : Nat → Text → Text
  | _, [] => []
  | skip + 1, _ :: s => withoutColoursFrom skip s
  | 0, c :: s =>
    match colourMarks.find? (·.isPrefixOf (c :: s)) with
    | some mark => withoutColoursFrom (mark.length - 1) s
    | none => c :: withoutColoursFrom 0 s

def withoutColours (s : Text) : Text := withoutColoursFrom 0 s

def cellText : Cell → Text
  | .processing => "Processing"
  | .text value => withoutColours value

def rowLines (rows : Rows) : List Text :=
  let width := rows.foldl (fun width row => max width row.1.length) 0
  rows.map fun (name, cell) =>
    name ++ List.replicate (width - name.length + 1) ' ' ++ cellText cell

def pieceLines : Piece → List Text
  | .panel panel =>
    ("-- " ++ panel.title ++ " --") :: Text.lines (withoutColours panel.text)
  | .rule title => [title]
  | .text text => Text.lines (withoutColours text)
  | .table rows => rowLines rows

def displayLines (console : Console) : List Text := console.layout.flatMap pieceLines

end GradlePublishing.CommandLine
