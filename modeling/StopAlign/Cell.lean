import StopAlign.Text.Quoted
import StopAlign.Text.Utf8
import StopAlign.Number.Shortest

/-!
# Cell — raw table cells and identifiers

- `Cell`        : a cell of a shape row before it is read
- `Ident`       : a trip identifier or stop reference
- `Ident.plain` : the form by which identifiers are compared
- `ShapeId`     : a shape identifier, text or octets

The text `1`, the number 1 and the octet 0x31 are three stops, while the integer 1, the double 1.0
and the truth value "true" are one. `shown` is the text of a value, `quoted` its form inside a
message that names a faulty value.
-/

namespace StopAlign

open Text Number

/-- A cell of a shape row. A cell that a short row leaves out is the real "no number". -/
inductive Cell
  | text (s : String)
  | octets (os : List UInt8)
  | real (x : Float)
  | whole (n : Int)
  | truth (b : Bool)
  | absent
  deriving DecidableEq

namespace Cell

def left : Cell := .real notANumber

def quoted : Cell → String
  | .text s => quoteText s
  | .octets os => quoteOctets os
  | .real x => writeReal x
  | .whole n => toString n
  | .truth true => "True"
  | .truth false => "False"
  | .absent => "None"

def shown : Cell → String
  | .text s => s
  | cell => cell.quoted

end Cell

/-! ## Identifiers -/

/-- A trip identifier or stop reference. A real is a number; values that are none are strays, told
apart by a serial number. -/
inductive Ident
  | text (s : String)
  | octets (os : List UInt8)
  | number (n : Int)
  | real (x : Float)
  | truth (b : Bool)
  | stray (serial : Nat)
  /-- The cell that a short row leaves out. -/
  | missing
  | absent
  deriving DecidableEq

namespace Ident

def toCell : Ident → Cell
  | .text s => .text s
  | .octets os => .octets os
  | .number n => .whole n
  | .real x => .real x
  | .truth b => .truth b
  | .stray _ | .missing => .left
  | .absent => .absent

def quoted (i : Ident) : String := i.toCell.quoted

def shown (i : Ident) : String := i.toCell.shown

def ofCell? : Option String → Ident
  | some s => .text s
  | none => .missing

/-- The form in which equal identifiers are the same one: a double that is an integer becomes that
integer, and so does a truth value. -/
def plain : Ident → Ident
  | .real x =>
    match integer? x with
    | some n => .number n
    | none => .real x
  | .truth b => .number (if b then 1 else 0)
  | id => id

@[simp]
theorem plain_text (s : String) : plain (.text s) = .text s := rfl

@[simp]
theorem plain_ofCell? (cell : Option String) : plain (ofCell? cell) = ofCell? cell := by
  cases cell <;> rfl

@[simp]
theorem plain_plain (id : Ident) : id.plain.plain = id.plain := by
  cases id with
  | real x =>
    rw [plain]
    split
    · rfl
    · rename_i h
      rw [plain, h]
  | _ => rfl

end Ident

inductive ShapeId
  | text (s : String)
  | octets (os : List UInt8)
  deriving DecidableEq

namespace ShapeId

def escapeOctet (o : UInt8) : List Char :=
  '\\' :: 'x' :: hexDigits 2 o.toNat

/-- Octets as text, an octet that belongs to no character as its escape. The fuel bounds the number
of flaws. -/
def showOctets : Nat → List UInt8 → List Char
  | 0, _ => []
  | fuel + 1, os =>
    match decodeBlock 0 os with
    | (chars, .complete) => chars
    | (chars, .cut rest) =>
      match leftover? rest with
      | some failure =>
        chars ++ failure.octets.flatMap escapeOctet
          ++ showOctets fuel (rest.drop failure.octets.length)
      | none => chars
    | (chars, .failed failure) =>
      chars ++ failure.octets.flatMap escapeOctet
        ++ showOctets fuel (os.drop (failure.position + failure.octets.length))

def shown : ShapeId → String
  | .text s => s
  | .octets os => String.ofList (showOctets (os.length + 1) os)

def ofCell : Cell → ShapeId
  | .octets os => .octets os
  | cell => .text cell.shown

/-- The identifier in a table cell; a cell that a short row leaves out names no shape. -/
def ofTableCell? (cell : Option String) : Option ShapeId :=
  cell.map .text

end ShapeId

end StopAlign
