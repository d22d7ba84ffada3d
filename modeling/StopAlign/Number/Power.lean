/-!
# Power — powers of two and of ten

- `twoTo`, `tenTo` : the powers
- `unit52`, `unit63`, `unit64` : the powers of two that bound the fields of a 64-bit word
-/

namespace StopAlign
namespace Number

def twoTo (n : Nat) : Nat := Nat.pow 2 n

def tenTo (n : Nat) : Nat := Nat.pow 10 n

def unit52 : Nat := 0x10000000000000

def unit63 : Nat := 0x8000000000000000

def unit64 : Nat := 0x10000000000000000

theorem twoTo_succ (n : Nat) : twoTo (n + 1) = twoTo n * 2 := rfl

theorem twoTo_add (a b : Nat) : twoTo (a + b) = twoTo a * twoTo b := Nat.pow_add 2 a b

theorem tenTo_succ (n : Nat) : tenTo (n + 1) = tenTo n * 10 := rfl

theorem twoTo_pos (n : Nat) : 0 < twoTo n := by
  induction n with
  | zero => decide
  | succ n ih =>
    rw [twoTo_succ]
    omega

theorem tenTo_pos (n : Nat) : 0 < tenTo n := by
  induction n with
  | zero => decide
  | succ n ih =>
    rw [tenTo_succ]
    omega

end Number
end StopAlign
