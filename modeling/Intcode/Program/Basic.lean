/-
This file defines programs and their text.
-/

import Intcode.Cell

namespace Intcode

/-- The cells that memory holds at first, from address zero on. -/
abbrev Program := List Cell

/-- The text of a program is its cells in decimal, with commas between them. -/
def Program.render (program : Program) : String :=
  ",".intercalate (program.map Cell.render)

end Intcode
