import Logging.Text.Alphabetic
import Logging.Text.Numeric
import Logging.Text.Mark

/-!
# Words

The characters that words are made of: letters, marks, decimal digits, and what joins them.
-/

namespace Logging.Text

def wordChars : CharSet :=
  CharSet.ofRanges
    ([alphabetic, marks, decimalDigits, connectors, joinControls].flatMap (·.ranges.toList))

end Logging.Text
