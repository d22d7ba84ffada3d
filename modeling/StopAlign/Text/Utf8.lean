/-!
# Utf8 — reading octets as text, block by block

- `Flaw`, `DecodeFailure` : why and where octets are no text
- `decodeBlock`           : the characters of one block, up to its end, a cut character or a flaw
- `decode`                : the characters of a file that is read in blocks
- `encode`                : the octets of a text

A file is read in blocks of `blockSize` octets. A character that a block cuts is finished with the
next block, and positions count from the first octet that is not yet decoded when a block is taken
up. What precedes the block of a flaw is text that has been read.
-/

namespace StopAlign
namespace Text

inductive Flaw
  | start
  | continuation
  | truncated
  deriving DecidableEq, Repr

/-- The octets refused, the position of the first one, and the reason. -/
structure DecodeFailure where
  position : Nat
  octets : List UInt8
  flaw : Flaw
  deriving DecidableEq, Repr

inductive Ending
  | complete
  | cut (octets : List UInt8)
  | failed (failure : DecodeFailure)
  deriving DecidableEq, Repr

structure Decoded where
  chars : List Char
  failure : Option DecodeFailure
  deriving DecidableEq, Repr

/-! ## Octet classes -/

/-- What a first octet promises: the number of octets after it, and the range of the next one. -/
structure Lead where
  more : Nat
  low : UInt8
  high : UInt8

def lead? (o : UInt8) : Option Lead :=
  -- the ranges leave out overlong forms, surrogates and what lies beyond the last code point
  if 0xC2 ≤ o ∧ o ≤ 0xDF then some ⟨1, 0x80, 0xBF⟩
  else if o = 0xE0 then some ⟨2, 0xA0, 0xBF⟩
  else if o = 0xED then some ⟨2, 0x80, 0x9F⟩
  else if 0xE1 ≤ o ∧ o ≤ 0xEF then some ⟨2, 0x80, 0xBF⟩
  else if o = 0xF0 then some ⟨3, 0x90, 0xBF⟩
  else if 0xF1 ≤ o ∧ o ≤ 0xF3 then some ⟨3, 0x80, 0xBF⟩
  else if o = 0xF4 then some ⟨3, 0x80, 0x8F⟩
  else none

def within (low high o : UInt8) : Bool :=
  low ≤ o && o ≤ high

def payload (o : UInt8) : Nat :=
  o.toNat % 64

/-- The first two octets of a surrogate, which no text holds. They are refused only when it is
known what follows them. -/
def opensSurrogate (a b : UInt8) : Bool :=
  a == 0xED && within 0xA0 0xBF b

/-! ## Decoding -/

def Ending.prepend (c : Char) (r : List Char × Ending) : List Char × Ending :=
  (c :: r.1, r.2)

def decodeBlock (position : Nat) : List UInt8 → List Char × Ending
  | [] => ([], .complete)
  | a :: as =>
    if a < 0x80 then Ending.prepend (Char.ofNat a.toNat) (decodeBlock (position + 1) as)
    else match lead? a with
    | none => ([], .failed ⟨position, [a], .start⟩)
    | some l =>
      -- a character that the block cuts is set aside
      match as with
      | [] => ([], .cut [a])
      | b :: bs =>
        if !within l.low l.high b then
          if opensSurrogate a b && bs.isEmpty then ([], .cut [a, b])
          else ([], .failed ⟨position, [a], .continuation⟩)
        else if l.more = 1 then
          Ending.prepend (Char.ofNat (a.toNat % 32 * 64 + payload b))
            (decodeBlock (position + 2) bs)
        else
          match bs with
          | [] => ([], .cut [a, b])
          | c :: cs =>
            if !within 0x80 0xBF c then ([], .failed ⟨position, [a, b], .continuation⟩)
            else if l.more = 2 then
              Ending.prepend (Char.ofNat (a.toNat % 16 * 4096 + payload b * 64 + payload c))
                (decodeBlock (position + 3) cs)
            else
              match cs with
              | [] => ([], .cut [a, b, c])
              | d :: ds =>
                if !within 0x80 0xBF d then ([], .failed ⟨position, [a, b, c], .continuation⟩)
                else
                  Ending.prepend
                    (Char.ofNat (a.toNat % 8 * 262144 + payload b * 4096 + payload c * 64
                      + payload d))
                    (decodeBlock (position + 4) ds)

def blockSize : Nat := 8192

/-- Cut octets into blocks; the fuel bounds their number. -/
def blocks : Nat → List UInt8 → List (List UInt8)
  | 0, _ => []
  | fuel + 1, octets =>
    if octets.isEmpty then []
    else octets.take blockSize :: blocks fuel (octets.drop blockSize)

/-- What is wrong with octets that are set aside when the file ends. -/
def leftover? : List UInt8 → Option DecodeFailure
  | [] => none
  -- nothing follows any more that the beginning of a surrogate could wait for
  | [a, b] => some (if opensSurrogate a b then ⟨0, [a], .continuation⟩ else ⟨0, [a, b], .truncated⟩)
  | octets => some ⟨0, octets, .truncated⟩

/-- Decode blocks, the first one preceded by the octets that the previous one set aside. -/
def decodeBlocks (pending : List UInt8) : List (List UInt8) → Decoded
  | [] => ⟨[], leftover? pending⟩
  | block :: rest =>
    -- positions count from the octets that have been set aside
    match decodeBlock 0 (pending ++ block) with
    | (chars, .complete) =>
      let tail := decodeBlocks [] rest
      ⟨chars ++ tail.chars, tail.failure⟩
    | (chars, .cut octets) =>
      let tail := decodeBlocks octets rest
      ⟨chars ++ tail.chars, tail.failure⟩
    | (_, .failed failure) => ⟨[], some failure⟩

def decode (octets : List UInt8) : Decoded :=
  decodeBlocks [] (blocks (octets.length / blockSize + 1) octets)

def encode (cs : List Char) : List UInt8 :=
  cs.flatMap String.utf8EncodeChar

theorem encode_append (s t : List Char) : encode (s ++ t) = encode s ++ encode t := by
  simp [encode]

end Text
end StopAlign
