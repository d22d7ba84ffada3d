import StopAlign.Disk
import StopAlign.Journal
import StopAlign.Number.Power
import StopAlign.Shape.Store

/-!
# ArrayFile — arrays in files of numbers

- `wordOctets`, `wordsOf` : words of eight octets, the low one first
- `Format`            : how the rows of an array are written
- `Format.file`       : the file of an array
- `Format.layout?`    : what a header says of the rows behind it
- `Format.rowsAt`     : the rows of a file with a layout
- `PointBits`, `pointFormat`, `boundaryFormat` : points in words; the two kinds of arrays
- `saveArrays`        : write the arrays of a store into a directory
- `ShapeStore.saveTo` : the same for a store in memory

A file has a header of 128 octets: a mark, the version 1.0, the length of the rest of the header and
a text that names the kind of number and the extent, padded with spaces up to a line feed. The
numbers follow without a gap. Headers of other lengths are read, too.
-/

namespace StopAlign
namespace ArrayFile

open Number

/-! ## Words -/

/-- The lowest octets of a number, the low one first. -/
def octetsOf : Nat → Nat → List UInt8
  | 0, _ => []
  | count + 1, n => UInt8.ofNat n :: octetsOf count (n / 256)

/-- The number of a row of octets, the low one first. -/
def ofOctets : List UInt8 → Nat
  | [] => 0
  | o :: os => o.toNat + 256 * ofOctets os

def wordOctets (w : UInt64) : List UInt8 := octetsOf 8 w.toNat

/-- So many words from the front of some octets. Octets that are missing count as zero. -/
def wordsOf : Nat → List UInt8 → List UInt64
  | 0, _ => []
  | count + 1, octets => UInt64.ofNat (ofOctets (octets.take 8)) :: wordsOf count (octets.drop 8)

def signedWord (i : Int) : UInt64 := UInt64.ofNat (i % (unit64 : Int)).toNat

def ofSignedWord (w : UInt64) : Int :=
  if w.toNat < unit63 then w.toNat else (w.toNat : Int) - unit64

/-! ## Texts -/

def octetOf (c : Char) : UInt8 := UInt8.ofNat c.toNat

def charOf (o : UInt8) : Char := Char.ofNat o.toNat

def textOctets (s : String) : List UInt8 := s.toList.map octetOf

def isDigitOctet (o : UInt8) : Bool := (charOf o).isDigit

/-- What follows some octets, if they are at the front. -/
def behind? : List UInt8 → List UInt8 → Option (List UInt8)
  | [], rest => some rest
  | o :: os, x :: rest => if o = x then behind? os rest else none
  | _ :: _, [] => none

/-! ## Formats -/

/-- How the rows of an array are written: the kind of number, the extent of a row as it stands
behind the number of rows, and the words of a row. Both texts leave room in the header. -/
structure Format (α : Type) where
  kind : String
  extent : String
  width : Nat
  words : α → List UInt64
  ofWords : List UInt64 → α
  short : kind.length + extent.length ≤ 32

/-- Where the rows of a file begin, and how many there are. -/
structure Layout where
  start : Nat
  rows : Nat
  deriving DecidableEq

def headerLength : Nat := 128

/-- What a file begins with, up to the version. -/
def mark : List UInt8 := [0x93, 0x4E, 0x55, 0x4D, 0x50, 0x59, 1, 0]

namespace Format

variable {α : Type} (f : Format α)

def front : List UInt8 :=
  textOctets ("\x7b'descr': '" ++ f.kind ++ "', 'fortran_order': False, 'shape': (")

def back : List UInt8 := textOctets ("," ++ f.extent ++ "), \x7d")

/-! ### Writing -/

/-- The text of a header about so many rows. -/
def title (rows : Nat) : List UInt8 := f.front ++ textOctets (toString rows) ++ f.back

def header (rows : Nat) : List UInt8 :=
  let padding := headerLength - 11 - (f.title rows).length
  mark ++ octetsOf 2 (headerLength - 10)
    ++ (f.title rows ++ List.replicate padding 0x20 ++ [0x0A])

def body (rows : List α) : List UInt8 := rows.flatMap fun a => (f.words a).flatMap wordOctets

def file (rows : Array α) : List UInt8 := f.header rows.size ++ f.body rows.toList

/-! ### Reading -/

/-- The number of rows that a text names, if it is one of this format. -/
def rowsIn? (text : List UInt8) : Option Nat := do
  let counted ← behind? f.front text
  let digits := counted.takeWhile isDigitOctet
  let padding ← behind? f.back (counted.dropWhile isDigitOctet)
  if digits.isEmpty || padding.any fun o => o ≠ 0x20 ∧ o ≠ 0x0A then none
  else return Nat.ofDigitChars 10 (digits.map charOf) 0

/-- What a header says, if there are as many rows behind it. -/
def layout? (file : List UInt8) : Option Layout := do
  let sized ← behind? mark file
  let length := ofOctets (sized.take 2)
  let text := sized.drop 2
  let rows ← f.rowsIn? (text.take length)
  if text.length < length + 8 * f.width * rows then none
  else return ⟨mark.length + 2 + length, rows⟩

def rowsOf : Nat → List UInt8 → List α
  | 0, _ => []
  | count + 1, octets =>
    f.ofWords (wordsOf f.width octets) :: rowsOf count (octets.drop (8 * f.width))

/-- The rows of a file with a layout. Behind the end of the file they go on with zeros. -/
def rowsAt (layout : Layout) (file : List UInt8) : Array α :=
  (f.rowsOf layout.rows (file.drop layout.start)).toArray

end Format

end ArrayFile

open ArrayFile

/-! ## Points and boundaries -/

/-- A point in words. There is one double that is no number, but many words stand for it, and files
keep those apart. -/
structure PointBits where
  lat : UInt64
  lon : UInt64
  deriving DecidableEq

namespace PointBits

def ofPoint (p : Point) : PointBits := ⟨p.lat.toBits, p.lon.toBits⟩

def ofWords : List UInt64 → PointBits
  | [lat, lon] => ⟨lat, lon⟩
  | _ => ⟨0, 0⟩

end PointBits

def pointFormat : Format PointBits where
  kind := "<f8"
  extent := " 2"
  width := 2
  words := fun p => [p.lat, p.lon]
  ofWords := .ofWords
  short := by decide

def boundaryFormat : Format Int where
  kind := "<i8"
  extent := ""
  width := 1
  words := fun b => [signedWord b]
  ofWords := fun ws => ofSignedWord (ws.headD 0)
  short := by decide

def pointFileName : String := "shape_points.npy"

def boundaryFileName : String := "shape_buckets.npy"

def arrayFileNames : List String := [pointFileName, boundaryFileName]

/-! ## On a disk -/

def writeIn (directory : String) (disk : Disk) (file : String × List UInt8) : Except Fault Disk :=
  let path := joinPath directory file.1
  match disk.write path file.2 with
  | .ok disk => return disk
  | .error flaw => throw (.badPath flaw path)

/-- Write an array into a directory. When its rows are read, the file has only a header yet. -/
def writeArray {α : Type} (f : Format α) (directory name : String) (rows : Disk → Array α)
    (disk : Disk) : Except Fault Disk := do
  let begun ← writeIn directory disk (name, f.header (rows disk).size)
  writeIn directory begun (name, f.file (rows begun))

/-- Write the arrays of a store into a directory, which is made. The points come first. -/
def saveArrays (points : Disk → Array PointBits) (starts : Disk → Array Int) (directory : String)
    (disk : Disk) : Except Fault Disk := do
  let disk ← disk.make (normalPath directory)
  let disk ← writeArray pointFormat directory pointFileName points disk
  writeArray boundaryFormat directory boundaryFileName starts disk

def Arrays.savedLine {α : Type} (a : Arrays α) (directory : String) : Line :=
  .info ("Saved " ++ toString a.size ++ " shapes (" ++ toString a.points.size ++ " points) to "
    ++ directory)

/-- Write the files of a store in memory. -/
def ShapeStore.saveTo (s : ShapeStore) : String → Disk → Except Fault Disk :=
  saveArrays (fun _ => s.points.map .ofPoint) fun _ => s.starts

end StopAlign
