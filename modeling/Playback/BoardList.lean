import Playback.Text.Blank
import Playback.Text.Cut

/-! Lists of board identifiers: entries between commas, trimmed; empty entries do not count. -/

set_option autoImplicit false

namespace Playback.BoardList

def parse (text : String) : List String :=
  (((cutAt ',' text.toList).map trimBlanks).filter fun id => !id.isEmpty).map String.ofList

end Playback.BoardList
