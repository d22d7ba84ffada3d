/-!
# Blank — white space and trimming

- `isBlank`     : the Unicode white space, which is trimmed from column names and cells
- `isMargin`    : the white space allowed around a numeral, without the four separators 0x1C to 0x1F
- `trimBy`      : drop the characters of a class from both ends
- `trim`        : drop blanks from both ends of a text
- `isBlankText` : nothing but blanks
-/

namespace StopAlign
namespace Text

/-- The white space characters of Unicode: the ASCII controls 9 to 13 and 28 to 31, the space, the
next line and no-break space, and the space separators beyond Latin-1. -/
def isBlank (c : Char) : Bool :=
  let n := c.toNat
  (9 ≤ n && n ≤ 13) || (28 ≤ n && n ≤ 32) || n == 0x85 || n == 0xA0 || n == 0x1680 ||
    (0x2000 ≤ n && n ≤ 0x200A) || n == 0x2028 || n == 0x2029 || n == 0x202F || n == 0x205F ||
    n == 0x3000

def isMargin (c : Char) : Bool :=
  isBlank c && !(28 ≤ c.toNat && c.toNat ≤ 31)

def trimBy (drop : Char → Bool) (cs : List Char) : List Char :=
  ((cs.dropWhile drop).reverse.dropWhile drop).reverse

def trim (s : String) : String :=
  String.ofList (trimBy isBlank s.toList)

/-- A text of blanks only, the empty text included. -/
def isBlankText (s : String) : Bool :=
  s.toList.all isBlank

end Text
end StopAlign
