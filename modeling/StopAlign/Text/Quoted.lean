import StopAlign.Text.Printable

/-!
# Quoted — texts and octets as they appear inside messages

- `quoteWith`   : delimiter, escaped characters, delimiter
- `quoteText`   : a text in quotes
- `quoteOctets` : an octet string in quotes, after the letter b

The delimiter is the single quote, or the double quote when the text has a single quote and no
double quote. Backslash, the delimiter, tab, line feed and carriage return have escapes of two
characters; every other hidden character is written by its code point, in two, four or eight
hexadecimal digits.
-/

namespace StopAlign
namespace Text

def hexDigit (n : Nat) : Char :=
  if n % 16 < 10 then Char.ofNat (48 + n % 16) else Char.ofNat (87 + n % 16)

def hexDigits : Nat → Nat → List Char
  | 0, _ => []
  | width + 1, n => hexDigits width (n / 16) ++ [hexDigit n]

/-- The quote that delimits a text. -/
def delimiterFor (cs : List Char) : Char :=
  if cs.contains '\'' && !cs.contains '"' then '"' else '\''

def escapeCode (n : Nat) : List Char :=
  if n < 0x100 then '\\' :: 'x' :: hexDigits 2 n
  else if n < 0x10000 then '\\' :: 'u' :: hexDigits 4 n
  else '\\' :: 'U' :: hexDigits 8 n

def escapeChar (delimiter : Char) (shown : Char → Bool) (c : Char) : List Char :=
  if c = '\\' ∨ c = delimiter then ['\\', c]
  else if c = '\t' then ['\\', 't']
  else if c = '\n' then ['\\', 'n']
  else if c = '\r' then ['\\', 'r']
  else if shown c then [c]
  else escapeCode c.toNat

/-- A text between delimiters, where `shown` says which characters stand for themselves. -/
def quoteWith (shown : Char → Bool) (cs : List Char) : List Char :=
  let delimiter := delimiterFor cs
  delimiter :: (cs.flatMap (escapeChar delimiter shown) ++ [delimiter])

def quoteText (s : String) : String :=
  String.ofList (quoteWith isPrintable s.toList)

/-- An octet string in quotes: only printable ASCII stands for itself. -/
def quoteOctets (octets : List UInt8) : String :=
  String.ofList <|
    'b' :: quoteWith (fun c => 32 ≤ c.toNat && c.toNat < 127)
      (octets.map fun o => Char.ofNat o.toNat)

end Text
end StopAlign
