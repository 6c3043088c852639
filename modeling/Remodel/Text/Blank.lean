/-!
# Blanks

The characters that count as white space, and texts without them at their ends.

## Strategy

Everything is stated on lists of characters; the functions on texts wrap them.
-/

namespace Remodel.Text

/-- The characters with the property White_Space. -/
def isBlank (c : Char) : Bool :=
  let code := c.toNat
  (0x09 ≤ code && code ≤ 0x0D) || code = 0x20 || code = 0x85 || code = 0xA0 || code = 0x1680 ||
    (0x2000 ≤ code && code ≤ 0x200A) || code = 0x2028 || code = 0x2029 || code = 0x202F ||
    code = 0x205F || code = 0x3000

/-- The text without the blanks at its end. -/
def trimEndChars (text : List Char) : List Char :=
  (text.reverse.dropWhile isBlank).reverse

/-- The text without the blanks at its two ends. -/
def trimChars (text : List Char) : List Char :=
  trimEndChars (text.dropWhile isBlank)

/-- The text without the blanks at its two ends. -/
def trim (text : String) : String :=
  String.ofList (trimChars text.toList)

@[simp] theorem trim_empty : trim "" = "" := rfl

end Remodel.Text
