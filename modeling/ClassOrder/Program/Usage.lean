import ClassOrder.Text.Basic

/-!
# Usage

What the program is called with: its name and its operands. They stand on one line if the terminal
is wide enough, and on several lines otherwise.
-/

namespace ClassOrder

namespace Usage

/-- What stands in front of the usage. -/
def lead : Text := "usage: "

def programName : Text := "classdeps"

/-- The operands as they are shown. One that may be left out stands in brackets. -/
def operands : List Text := ["[directory]"]

/-- Puts words on lines. The first line is begun: its words so far are given, and the column where
the next one would start. A word that would go beyond the width begins another line behind an
indent, unless its line has no other word. -/
def fill (width indent : Nat) (begun : List Text) (column : Nat) : List Text → List (List Text)
  | [] => if begun.isEmpty then [] else [begun]
  | word :: words =>
    if width < column + word.length && !begun.isEmpty then
      begun :: fill width indent [word] (indent + word.length + 1) words
    else fill width indent (begun ++ [word]) (column + word.length + 1) words

/-- Lines of words, all but the first behind an indent. -/
def layOut (indent : Nat) (lines : List (List Text)) : Text :=
  let blanks : Text := List.replicate indent 0x20
  Text.joinWith ("\n" ++ blanks) (lines.map (Text.joinWith " "))

/-- The usage on a terminal of some width, of which two columns stay free. On several lines the
operands stand behind the name if that takes three quarters of the line at most, and below it
otherwise. -/
def text (columns : Nat) : Text :=
  let width := columns - 2
  let whole := Text.joinWith " " (programName :: operands)
  let behindName := lead.length + programName.length
  if lead.length + whole.length ≤ width then lead ++ whole
  else if 4 * behindName ≤ 3 * width then
    lead ++ layOut (behindName + 1)
      (fill width (behindName + 1) [] lead.length (programName :: operands))
  else lead ++ layOut lead.length ([programName] :: fill width lead.length [] lead.length operands)

end Usage

end ClassOrder
