import Mathlib.Data.List.Infix
import Mathlib.Tactic.IntervalCases
import StopAlign.Text.Utf8

/-!
# Utf8 — text that is written and read again

- `Encodes`, `encodes_encodeChar` : the octets of a character, as a reader takes them apart
- `Encodes.decodeBlock_append`, `Encodes.decodeBlock_cut` : a whole character is read, and a part of
  one at the end of a block is set aside
- `exists_cut`    : what the beginning of a written text is made of
- `flatten_blocks` : the blocks of a file are the file
- `decode_encode` : a text comes back as it was written, wherever the blocks cut it
-/

namespace StopAlign
namespace Text

/-! ## One character -/

/-- The octets of a character: one below 0x80, or a first one that promises the number of the others
and the range of the next one. -/
inductive Encodes : Char → List UInt8 → Prop
  | one {c : Char} {a : UInt8} (low : a < 0x80) (value : c.toNat = a.toNat) : Encodes c [a]
  | two {c : Char} {a b : UInt8} {l : Lead} (high : ¬a < 0x80) (lead : lead? a = some l)
      (more : l.more = 1) (next : within l.low l.high b = true)
      (value : c.toNat = a.toNat % 32 * 64 + payload b) : Encodes c [a, b]
  | three {c : Char} {a b d : UInt8} {l : Lead} (high : ¬a < 0x80) (lead : lead? a = some l)
      (more : l.more = 2) (next : within l.low l.high b = true) (third : within 0x80 0xBF d = true)
      (value : c.toNat = a.toNat % 16 * 4096 + payload b * 64 + payload d) : Encodes c [a, b, d]
  | four {c : Char} {a b d e : UInt8} {l : Lead} (high : ¬a < 0x80) (lead : lead? a = some l)
      (more : l.more = 3) (next : within l.low l.high b = true) (third : within 0x80 0xBF d = true)
      (fourth : within 0x80 0xBF e = true)
      (value : c.toNat = a.toNat % 8 * 262144 + payload b * 4096 + payload d * 64 + payload e) :
      Encodes c [a, b, d, e]

section Octets

theorem toNat_octet {n : Nat} (h : n < 256) : (UInt8.ofNat n).toNat = n :=
  UInt8.toNat_ofNat_of_lt' h

theorem not_ascii {n : Nat} (low : 0x80 ≤ n) (high : n < 256) : ¬UInt8.ofNat n < 0x80 := by
  rw [UInt8.lt_iff_toNat_lt, toNat_octet high]
  exact Nat.not_lt.mpr low

theorem lead?_two {k : Nat} (low : 2 ≤ k) (high : k < 32) :
    lead? (UInt8.ofNat (k + 0xC0)) = some ⟨1, 0x80, 0xBF⟩ := by
  interval_cases k <;> rfl

theorem lead?_three {k : Nat} (high : k < 16) :
    lead? (UInt8.ofNat (k + 0xE0)) =
      some ⟨2, if k = 0 then 0xA0 else 0x80, if k = 13 then 0x9F else 0xBF⟩ := by
  interval_cases k <;> rfl

theorem lead?_four {k : Nat} (high : k < 5) :
    lead? (UInt8.ofNat (k + 0xF0)) =
      some ⟨3, if k = 0 then 0x90 else 0x80, if k = 4 then 0x8F else 0xBF⟩ := by
  interval_cases k <;> rfl

theorem within_octet {low high : UInt8} {n : Nat} (least : low.toNat ≤ n) (most : n ≤ high.toNat) :
    within low high (UInt8.ofNat n) = true := by
  have octet : n < 256 := Nat.lt_of_le_of_lt most high.toNat_lt
  simp only [within, Bool.and_eq_true, decide_eq_true_eq, UInt8.le_iff_toNat_le, toNat_octet octet]
  exact ⟨least, most⟩

theorem within_continuation (n : Nat) : within 0x80 0xBF (UInt8.ofNat (n % 64 + 0x80)) = true :=
  within_octet (Nat.le_add_left _ _) (show n % 64 + 0x80 ≤ 0xBF by omega)

/-- The second octet behind a first one that narrows its range at both ends. -/
theorem within_narrowed {k first last n : Nat} {low high : UInt8}
    (least : k = first → low.toNat ≤ n % 64 + 0x80)
    (most : k = last → n % 64 + 0x80 ≤ high.toNat) :
    within (if k = first then low else 0x80) (if k = last then high else 0xBF)
      (UInt8.ofNat (n % 64 + 0x80)) = true := by
  refine within_octet ?_ ?_
  · by_cases here : k = first
    · rw [if_pos here]
      exact least here
    · rw [if_neg here]
      exact Nat.le_add_left _ _
  · by_cases here : k = last
    · rw [if_pos here]
      exact most here
    · rw [if_neg here]
      exact show n % 64 + 0x80 ≤ 0xBF by omega

theorem payload_continuation (n : Nat) : payload (UInt8.ofNat (n % 64 + 0x80)) = n % 64 := by
  have octet : n % 64 + 0x80 < 256 := by omega
  rw [payload, toNat_octet octet]
  omega

end Octets

theorem encodes_encodeChar (c : Char) : Encodes c (String.utf8EncodeChar c) := by
  have valid : c.val.toNat < 0xD800 ∨ 0xDFFF < c.val.toNat ∧ c.val.toNat < 0x110000 := c.valid
  have value : c.toNat = c.val.toNat := rfl
  unfold String.utf8EncodeChar
  dsimp only
  generalize c.val.toNat = v at valid value
  by_cases one : v ≤ 0x7F
  · rw [if_pos one]
    have octet : v < 256 := by omega
    refine .one ?_ (by rw [toNat_octet octet, value])
    rw [UInt8.lt_iff_toNat_lt, toNat_octet octet]
    exact Nat.lt_succ_of_le one
  rw [if_neg one]
  by_cases two : v ≤ 0x7FF
  · rw [if_pos two]
    have first : v / 64 % 0x20 + 0xC0 < 256 := by omega
    refine .two (not_ascii (by omega) first) (lead?_two (by omega) (by omega)) rfl
      (within_continuation v) ?_
    rw [toNat_octet first, payload_continuation]
    omega
  rw [if_neg two]
  by_cases three : v ≤ 0xFFFF
  · rw [if_pos three]
    have first : v / 4096 % 0x10 + 0xE0 < 256 := by omega
    -- what is shorter in two octets, and the surrogates, are out of range
    refine .three (not_ascii (by omega) first) (lead?_three (by omega)) rfl
      (within_narrowed (fun _ => show 0xA0 ≤ v / 64 % 64 + 0x80 by omega)
        (fun _ => show v / 64 % 64 + 0x80 ≤ 0x9F by omega)) (within_continuation v) ?_
    rw [toNat_octet first, payload_continuation, payload_continuation]
    omega
  · rw [if_neg three]
    have first : v / 262144 % 0x08 + 0xF0 < 256 := by omega
    -- what is shorter in three octets, and what is no code point, is out of range
    refine .four (not_ascii (by omega) first) (lead?_four (by omega)) rfl
      (within_narrowed (fun _ => show 0x90 ≤ v / 4096 % 64 + 0x80 by omega)
        (fun _ => show v / 4096 % 64 + 0x80 ≤ 0x8F by omega)) (within_continuation (v / 64))
      (within_continuation v) ?_
    rw [toNat_octet first, payload_continuation, payload_continuation, payload_continuation]
    omega

namespace Encodes

variable {c : Char} {octets : List UInt8} (encodes : Encodes c octets)

include encodes

/-- A whole character is read. -/
theorem decodeBlock_append (position : Nat) (rest : List UInt8) :
    decodeBlock position (octets ++ rest) =
      Ending.prepend c (decodeBlock (position + octets.length) rest) := by
  cases encodes with
  | one low value =>
    rw [List.singleton_append, decodeBlock, if_pos low, ← value, Char.ofNat_toNat]
    rfl
  | two high lead more next value =>
    simp only [List.cons_append, List.nil_append, decodeBlock, if_neg high, lead, next, more,
      Bool.not_true, Bool.false_eq_true, if_false, if_true]
    rw [← value, Char.ofNat_toNat]
    rfl
  | three high lead more next third value =>
    simp only [List.cons_append, List.nil_append, decodeBlock, if_neg high, lead, next, more, third,
      Bool.not_true, Bool.false_eq_true, if_false, if_true, Nat.reduceEqDiff]
    rw [← value, Char.ofNat_toNat]
    rfl
  | four high lead more next third fourth value =>
    simp only [List.cons_append, List.nil_append, decodeBlock, if_neg high, lead, next, more, third,
      fourth, Bool.not_true, Bool.false_eq_true, if_false, Nat.reduceEqDiff]
    rw [← value, Char.ofNat_toNat]
    rfl

/-- A part of a character at the end of a block is set aside. -/
theorem decodeBlock_cut {part : List UInt8} (some : part ≠ []) (begins : part <+: octets)
    (short : part ≠ octets) (position : Nat) : decodeBlock position part = ([], .cut part) := by
  have taken := List.prefix_iff_eq_take.mp begins
  have least : 0 < part.length := List.length_pos_iff.mpr some
  have most : part.length < octets.length :=
    Nat.lt_of_le_of_ne begins.length_le fun same => short (begins.eq_of_length same)
  -- a part is told by its length, and at each length the reader waits for the next octet
  rw [taken]
  generalize part.length = n at least most
  cases encodes with
  | one low value =>
    have none : n < 1 := most
    omega
  | two high lead more next value =>
    have count : n < 2 := most
    interval_cases n
    simp only [List.take, decodeBlock, if_neg high, lead]
  | three high lead more next third value =>
    have count : n < 3 := most
    interval_cases n <;>
      simp only [List.take, decodeBlock, if_neg high, lead, next, more, Bool.not_true,
        Bool.false_eq_true, if_false, Nat.reduceEqDiff]
  | four high lead more next third fourth value =>
    have count : n < 4 := most
    interval_cases n <;>
      simp only [List.take, decodeBlock, if_neg high, lead, next, more, third, Bool.not_true,
        Bool.false_eq_true, if_false, Nat.reduceEqDiff]

end Encodes

/-! ## Blocks -/

/-- Octets that a text may leave unread: none, or a part of its first character. -/
def Begins (part : List UInt8) : List Char → Prop
  | [] => part = []
  | c :: _ => part <+: String.utf8EncodeChar c ∧ part ≠ String.utf8EncodeChar c

theorem encode_cons (c : Char) (cs : List Char) :
    encode (c :: cs) = String.utf8EncodeChar c ++ encode cs := rfl

theorem begins_nil (cs : List Char) : Begins [] cs := by
  cases cs with
  | nil => exact rfl
  | cons c cs =>
    refine ⟨List.nil_prefix, fun none => ?_⟩
    have size := String.length_utf8EncodeChar c
    rw [← none] at size
    exact Nat.ne_of_lt c.utf8Size_pos size

/-- A beginning of a written text is some of its characters and a part of the next one. -/
theorem exists_cut {cs : List Char} {octets : List UInt8} (begins : octets <+: encode cs) :
    ∃ ds es part, cs = ds ++ es ∧ octets = encode ds ++ part ∧ Begins part es := by
  induction cs generalizing octets with
  | nil => exact ⟨[], [], [], rfl, List.prefix_nil.mp begins, rfl⟩
  | cons c cs ih =>
    rw [encode_cons] at begins
    -- the octets end within the first character, or they hold all of it
    rcases Nat.lt_or_ge octets.length (String.utf8EncodeChar c).length with less | more
    · refine ⟨[], c :: cs, octets, rfl, rfl, ?_, fun same => ?_⟩
      · exact List.prefix_of_prefix_length_le begins (List.prefix_append _ _) (Nat.le_of_lt less)
      · exact Nat.ne_of_lt less (congrArg List.length same)
    · rcases List.prefix_of_prefix_length_le (List.prefix_append _ _) begins more with ⟨behind, rfl⟩
      rcases ih ((List.prefix_append_right_inj _).mp begins) with ⟨ds, es, part, rfl, rfl, first⟩
      exact ⟨c :: ds, es, part, rfl, by rw [encode_cons, List.append_assoc], first⟩

/-- How a block ends that a text leaves a part of a character in. -/
def endingOf (part : List UInt8) : Ending := if part = [] then .complete else .cut part

theorem decodeBlock_encode (position : Nat) {ds es : List Char} {part : List UInt8}
    (first : Begins part es) :
    decodeBlock position (encode ds ++ part) = (ds, endingOf part) := by
  induction ds generalizing position with
  | nil =>
    by_cases none : part = []
    · rw [none]
      rfl
    · rw [endingOf, if_neg none]
      cases es with
      | nil => exact absurd first none
      | cons c es => exact (encodes_encodeChar c).decodeBlock_cut none first.1 first.2 position
  | cons c ds ih =>
    rw [encode_cons, List.append_assoc, (encodes_encodeChar c).decodeBlock_append, ih]
    rfl

/-- Blocks that are what is left of a written text are read to its end, and nothing is missing. -/
theorem decodeBlocks_encode {pending : List UInt8} {blocks : List (List UInt8)} {cs : List Char}
    (first : Begins pending cs) (left : pending ++ blocks.flatten = encode cs) :
    decodeBlocks pending blocks = ⟨cs, none⟩ := by
  induction blocks generalizing pending cs with
  | nil =>
    rw [List.flatten_nil, List.append_nil] at left
    cases cs with
    | nil =>
      rw [show pending = [] from first]
      rfl
    | cons c cs =>
      -- the text has more than a part of its first character
      have begins : String.utf8EncodeChar c <+: pending := ⟨encode cs, left.symm⟩
      exact absurd (first.1.eq_of_length_le begins.length_le) first.2
  | cons block rest ih =>
    rw [List.flatten_cons, ← List.append_assoc] at left
    -- what the block leaves pending begins the rest of the text again
    rcases exists_cut ⟨rest.flatten, left⟩ with ⟨ds, es, part, rfl, cut, next⟩
    have later : part ++ rest.flatten = encode es := by
      rw [cut, encode_append, List.append_assoc] at left
      exact List.append_cancel_left left
    rw [decodeBlocks, cut, decodeBlock_encode 0 next, endingOf]
    by_cases none : part = []
    · subst none
      simp only [if_true, ih next later]
    · simp only [if_neg none, ih next later]

theorem flatten_blocks {fuel : Nat} {octets : List UInt8}
    (enough : octets.length ≤ fuel * blockSize) : (blocks fuel octets).flatten = octets := by
  induction fuel generalizing octets with
  | zero =>
    rw [Nat.zero_mul] at enough
    rw [List.eq_nil_of_length_eq_zero (Nat.le_zero.mp enough)]
    rfl
  | succ fuel ih =>
    rw [blocks]
    by_cases none : octets = []
    · rw [none]
      rfl
    · have fewer : (octets.drop blockSize).length ≤ fuel * blockSize := by
        rw [List.length_drop]
        rw [Nat.succ_mul] at enough
        omega
      rw [if_neg (by simpa using none), List.flatten_cons, ih fewer, List.take_append_drop]

/-- A text comes back as it was written. -/
theorem decode_encode (cs : List Char) : decode (encode cs) = ⟨cs, none⟩ := by
  refine decodeBlocks_encode (begins_nil cs) (flatten_blocks ?_)
  rw [Nat.mul_comm]
  exact Nat.le_of_lt (Nat.lt_mul_div_succ _ (by decide))

end Text
end StopAlign
