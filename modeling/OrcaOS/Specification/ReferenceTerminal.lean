import OrcaOS.Construction.Screen
import OrcaOS.Foundation.TextTerminal

/-!
The reference terminal of 80 columns and 25 rows, and what it means that the live page shows it.
-/

namespace OrcaOS
open Foundation

/-- A character with its attribute. -/
abbrev Cell := UInt8 × UInt8

def blankCell : Cell := (spaceAscii, attrib)

abbrev ReferenceTerminal := TextTerminal 79 24 Cell

/-- The address of a cell of the live page. -/
def cellAddress (row column : Nat) : Nat := videoMemory + 2 * (80 * row + column)

/-- The live page and the cursor are those of the terminal. -/
structure Console.Shows (c : Console) (t : ReferenceTerminal) : Prop where
  cells : ∀ (row : Fin 25) (column : Fin 80),
    (c.video (cellAddress row column), c.video (cellAddress row column + 1)) = t.cell row column
  screenX : c.screenX = t.column
  screenY : c.screenY = t.row

namespace ReferenceTerminal

/-- A new line goes to the next row, a carriage return is ignored, and every other byte takes one cell. -/
def process (t : ReferenceTerminal) (byte : UInt8) : ReferenceTerminal :=
  if byte = 10 then t.lineFeed blankCell
  else if byte = 13 then t
  else t.put blankCell (if byte = 0 then blankCell else (byte, attrib))

def processAll (t : ReferenceTerminal) (bytes : List UInt8) : ReferenceTerminal := bytes.foldl process t

end ReferenceTerminal

end OrcaOS
