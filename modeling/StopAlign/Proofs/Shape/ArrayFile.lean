import StopAlign.Shape.ArrayFile

/-!
# ArrayFile — what is written to the file of an array is read from it

- `ofOctets_octetsOf`, `wordsOf_flatMap` : octets of words, and the words of octets
- `ofSignedWord_signedWord` : signed words
- `rowsIn?_title`       : the text of a header names the number of rows
- `layout?_header`      : a header says how long it is, and how many rows are behind it
- `Format.Keeps`        : a row that comes back from its words
- `rowsOf_body`         : rows come back from their octets
- `layout?_file`, `rowsAt_file` : the layout of a file and its rows
- `Encodes`, `encodes_file` : the octets of a file, said without its writer
- `Arrays.Storable`     : arrays whose files can be read
- `Arrays.StoredIn`     : files that hold arrays

The words go through files whatever they stand for, so neither zeros with a sign nor infinities nor
the words that are no number need a case of their own.
-/

namespace StopAlign
namespace ArrayFile

open Number

/-! ## Words -/

theorem length_octetsOf (count n : Nat) : (octetsOf count n).length = count := by
  induction count generalizing n with
  | zero => rfl
  | succ count ih => rw [octetsOf, List.length_cons, ih]

/-- Octets hold a number up to the power of two that they have room for. -/
theorem ofOctets_octetsOf (count n : Nat) :
    ofOctets (octetsOf count n) = n % twoTo (8 * count) := by
  induction count generalizing n with
  | zero => exact (Nat.mod_one n).symm
  | succ count ih =>
    have room : twoTo (8 * (count + 1)) = 256 * twoTo (8 * count) := by
      rw [Nat.mul_succ, Nat.add_comm, twoTo_add]
      rfl
    have low : (UInt8.ofNat n).toNat = n % 256 := UInt8.toNat_ofNat'
    rw [octetsOf, ofOctets, low, ih, room, Nat.mod_mul]

theorem ofOctets_wordOctets (w : UInt64) : UInt64.ofNat (ofOctets (wordOctets w)) = w := by
  have small : w.toNat < twoTo (8 * 8) := w.toNat_lt
  rw [wordOctets, ofOctets_octetsOf, Nat.mod_eq_of_lt small, UInt64.ofNat_toNat]

theorem length_wordOctets (w : UInt64) : (wordOctets w).length = 8 :=
  length_octetsOf 8 w.toNat

theorem length_flatMap_wordOctets (ws : List UInt64) :
    (ws.flatMap wordOctets).length = 8 * ws.length := by
  induction ws with
  | nil => rfl
  | cons w ws ih =>
    rw [List.flatMap_cons, List.length_append, length_wordOctets, ih, List.length_cons]
    omega

/-- Words come back from their octets, whatever stands behind them. -/
theorem wordsOf_flatMap (ws : List UInt64) (rest : List UInt8) :
    wordsOf ws.length (ws.flatMap wordOctets ++ rest) = ws := by
  induction ws with
  | nil => rfl
  | cons w ws ih =>
    rw [List.flatMap_cons, List.append_assoc, List.length_cons, wordsOf,
      List.take_left' (length_wordOctets w), List.drop_left' (length_wordOctets w),
      ofOctets_wordOctets, ih]

theorem getElem?_octetsOf {count k : Nat} (within : k < count) (n : Nat) :
    (octetsOf count n)[k]? = some (UInt8.ofNat (n >>> (8 * k))) := by
  induction count generalizing k n with
  | zero => omega
  | succ count ih =>
    cases k with
    | zero => rfl
    | succ k =>
      have octet : n >>> 8 = n / 256 := Nat.shiftRight_eq_div_pow n 8
      rw [octetsOf, List.getElem?_cons_succ, ih (by omega), Nat.mul_succ, Nat.add_comm,
        Nat.shiftRight_add, octet]

/-- Words stand one behind the other, each with the low octet first. -/
theorem getElem?_flatMap_wordOctets {ws : List UInt64} {i k : Nat} {w : UInt64}
    (here : ws[i]? = some w) (within : k < 8) :
    (ws.flatMap wordOctets)[8 * i + k]? = some (UInt8.ofNat (w.toNat >>> (8 * k))) := by
  induction ws generalizing i with
  | nil => cases here
  | cons v ws ih =>
    have size := length_wordOctets v
    rw [List.flatMap_cons]
    cases i with
    | zero =>
      cases here
      rw [List.getElem?_append_left (by omega), Nat.mul_zero, Nat.zero_add]
      exact getElem?_octetsOf within w.toNat
    | succ i =>
      rw [List.getElem?_append_right (by omega), size, ← ih here]
      congr 1
      omega

theorem toNat_signedWord (i : Int) : (signedWord i).toNat = (i % (unit64 : Int)).toNat := by
  have word : unit64 = UInt64.size := rfl
  have low := Int.emod_nonneg i (show (unit64 : Int) ≠ 0 by decide)
  have high := Int.emod_lt_of_pos i (show 0 < (unit64 : Int) by decide)
  rw [signedWord, UInt64.toNat_ofNat_of_lt']
  omega

/-- Signed words are those of two's complement. -/
theorem signedWord_eq (i : Int) : signedWord i = (Int64.ofInt i).toUInt64 := by
  apply UInt64.toNat_inj.mp
  have word : unit64 = 2 ^ 64 := by decide
  rw [toNat_signedWord, word]
  exact (BitVec.toNat_ofInt (n := 64) i).symm

theorem ofSignedWord_signedWord {i : Int} (h : Span.isWord i = true) :
    ofSignedWord (signedWord i) = i := by
  have size : unit64 = 2 * unit63 := by decide
  simp only [Span.isWord, Bool.and_eq_true, decide_eq_true_eq] at h
  rw [ofSignedWord, toNat_signedWord]
  by_cases negative : i < 0
  · have wrapped : i % (unit64 : Int) = i + unit64 := by
      rw [← Int.add_emod_right, Int.emod_eq_of_lt] <;> omega
    rw [wrapped]
    split <;> omega
  · rw [Int.emod_eq_of_lt (by omega) (by omega)]
    split <;> omega

/-! ## Texts -/

theorem charOf_octetOf {c : Char} (h : c.toNat < 256) : charOf (octetOf c) = c := by
  rw [charOf, octetOf, UInt8.toNat_ofNat_of_lt' h, Char.ofNat_toNat]

theorem toNat_of_isDigit {c : Char} (h : c.isDigit = true) : c.toNat < 256 := by
  simp only [Char.isDigit, Bool.and_eq_true, decide_eq_true_eq] at h
  have top : c.val.toNat ≤ 57 := UInt32.le_iff_toNat_le.mp h.2
  exact Nat.lt_of_le_of_lt top (by decide)

theorem textOctets_append (s t : String) : textOctets (s ++ t) = textOctets s ++ textOctets t := by
  rw [textOctets, String.toList_append, List.map_append]
  rfl

theorem length_textOctets (s : String) : (textOctets s).length = s.length := by
  rw [textOctets, List.length_map, String.length_toList]

theorem textOctets_toString (n : Nat) :
    textOctets (toString n) = (Nat.toDigits 10 n).map octetOf := by
  rw [textOctets, Nat.toString_eq_ofList_toDigits, String.toList_ofList]

theorem isDigit_of_mem_toString {n : Nat} {o : UInt8} (member : o ∈ textOctets (toString n)) :
    isDigitOctet o = true := by
  rw [textOctets_toString] at member
  rcases List.mem_map.mp member with ⟨c, among, rfl⟩
  have digit := Nat.isDigit_of_mem_toDigits (by decide) (by decide) among
  rwa [isDigitOctet, charOf_octetOf (toNat_of_isDigit digit)]

theorem ofDigitChars_toString (n : Nat) :
    Nat.ofDigitChars 10 ((textOctets (toString n)).map charOf) 0 = n := by
  have back : (textOctets (toString n)).map charOf = Nat.toDigits 10 n := by
    rw [textOctets_toString, List.map_map]
    refine (List.map_congr_left fun c among => ?_).trans (List.map_id _)
    have digit := Nat.isDigit_of_mem_toDigits (by decide) (by decide) among
    exact charOf_octetOf (toNat_of_isDigit digit)
  rw [back, Nat.ofDigitChars_ten_toDigits]

/-- A word has at most twenty digits. -/
theorem length_toString {n : Nat} (h : n < unit64) : (textOctets (toString n)).length ≤ 20 := by
  have bound : unit64 ≤ 10 ^ 20 := by decide
  rw [textOctets_toString, List.length_map]
  exact (Nat.length_toDigits_le_iff (by decide) (by decide)).mpr (by omega)

theorem behind?_append (front rest : List UInt8) : behind? front (front ++ rest) = some rest := by
  induction front with
  | nil => rfl
  | cons o front ih => rw [List.cons_append, behind?, if_pos rfl, ih]

/-! ## Headers -/

namespace Format

variable {α : Type} (f : Format α)

/-- Behind the number of rows stands a comma. -/
theorem back_eq : f.back = octetOf ',' :: textOctets (f.extent ++ "), \x7d") := by
  rw [back, String.append_assoc, textOctets_append]
  rfl

/-- The text of a header names the number of rows. -/
theorem rowsIn?_title (rows : Nat) {padding : List UInt8}
    (blank : (padding.any fun o => o ≠ 0x20 ∧ o ≠ 0x0A) = false) :
    f.rowsIn? (f.title rows ++ padding) = some rows := by
  have digits : ∀ o ∈ textOctets (toString rows), isDigitOctet o = true :=
    fun o member => isDigit_of_mem_toString member
  have filled : (textOctets (toString rows)).isEmpty = false := by
    rw [textOctets_toString, List.isEmpty_map, List.isEmpty_eq_false_iff]
    exact Nat.toDigits_ne_nil
  have comma : isDigitOctet (octetOf ',') = false := by decide
  have taken : (textOctets (toString rows) ++ (f.back ++ padding)).takeWhile isDigitOctet =
      textOctets (toString rows) := by
    rw [List.takeWhile_append_of_pos digits, back_eq, List.cons_append,
      List.takeWhile_cons_of_neg (by simp [comma]), List.append_nil]
  have left : (textOctets (toString rows) ++ (f.back ++ padding)).dropWhile isDigitOctet =
      f.back ++ padding := by
    rw [List.dropWhile_append_of_pos digits, back_eq, List.cons_append,
      List.dropWhile_cons_of_neg (by simp [comma])]
  rw [title, List.append_assoc, List.append_assoc]
  simp only [rowsIn?, behind?_append, taken, left, Option.bind_eq_bind, Option.bind_some, filled,
    blank, ofDigitChars_toString]
  rfl

theorem length_title {rows : Nat} (few : rows < unit64) : (f.title rows).length ≤ 117 := by
  have counted := length_toString few
  have named := f.short
  have start : "\x7b'descr': '".length = 11 := by decide
  have middle : "', 'fortran_order': False, 'shape': (".length = 37 := by decide
  have comma : ",".length = 1 := by decide
  have close : "), \x7d".length = 4 := by decide
  simp only [title, front, back, List.length_append, length_textOctets, String.length_append]
    at counted ⊢
  omega

/-- The length in a header is the one of what follows it up to the numbers. -/
theorem header_eq {rows : Nat} (few : rows < unit64) :
    ∃ blanks, (f.title rows ++ (List.replicate blanks 0x20 ++ [0x0A])).length = 118 ∧
      f.header rows =
        mark ++ (octetsOf 2 118 ++ (f.title rows ++ (List.replicate blanks 0x20 ++ [0x0A]))) := by
  have room := f.length_title few
  refine ⟨headerLength - 11 - (f.title rows).length, ?_, ?_⟩
  · simp only [headerLength, List.length_append, List.length_replicate, List.length_singleton]
    omega
  · simp only [header, headerLength, List.append_assoc]

/-- A header says how long it is, and how many rows are behind it. -/
theorem layout?_header {rows : Nat} (few : rows < unit64) {numbers : List UInt8}
    (all : numbers.length = 8 * f.width * rows) :
    f.layout? (f.header rows ++ numbers) = some ⟨headerLength, rows⟩ := by
  rcases f.header_eq few with ⟨blanks, length, parts⟩
  have blank : ((List.replicate blanks (0x20 : UInt8) ++ [0x0A]).any fun o =>
      o ≠ 0x20 ∧ o ≠ 0x0A) = false := by
    simp [List.any_append, List.any_replicate]
  have said : ofOctets (octetsOf 2 118) = 118 := by decide
  rw [parts, List.append_assoc, List.append_assoc, layout?, behind?_append]
  simp only [Option.bind_eq_bind, Option.bind_some, List.take_left' (length_octetsOf 2 118),
    List.drop_left' (length_octetsOf 2 118), said, List.take_left' length,
    f.rowsIn?_title rows blank]
  rw [if_neg]
  · rfl
  · rw [List.length_append, length, all]
    omega

theorem length_header {rows : Nat} (few : rows < unit64) :
    (f.header rows).length = headerLength := by
  rcases f.header_eq few with ⟨blanks, length, parts⟩
  rw [parts, List.length_append, List.length_append, length, length_octetsOf]
  rfl

/-! ## Rows -/

/-- A row that comes back from its words. -/
structure Keeps (a : α) : Prop where
  width : (f.words a).length = f.width
  back : f.ofWords (f.words a) = a

variable {f}

theorem length_body {rows : List α} (keeps : ∀ a ∈ rows, f.Keeps a) :
    (f.body rows).length = 8 * f.width * rows.length := by
  induction rows with
  | nil => rfl
  | cons a rows ih =>
    have here := (keeps a List.mem_cons_self).width
    have later := ih fun b member => keeps b (List.mem_cons_of_mem a member)
    rw [body] at later ⊢
    rw [List.flatMap_cons, List.length_append, length_flatMap_wordOctets, here, later,
      List.length_cons, Nat.mul_succ, Nat.add_comm]

/-- Rows come back from their octets. -/
theorem rowsOf_body {rows : List α} (keeps : ∀ a ∈ rows, f.Keeps a) :
    f.rowsOf rows.length (f.body rows) = rows := by
  induction rows with
  | nil => rfl
  | cons a rows ih =>
    have here := keeps a List.mem_cons_self
    have later := ih fun b member => keeps b (List.mem_cons_of_mem a member)
    have octets : ((f.words a).flatMap wordOctets).length = 8 * f.width := by
      rw [length_flatMap_wordOctets, here.width]
    rw [body] at later ⊢
    rw [List.flatMap_cons, List.length_cons, rowsOf, List.drop_left' octets, later, ← here.width,
      wordsOf_flatMap, here.back]

/-- The header of a file says where its rows are. -/
theorem layout?_file {rows : Array α} (few : rows.size < unit64)
    (keeps : ∀ a ∈ rows, f.Keeps a) :
    f.layout? (f.file rows) = some ⟨headerLength, rows.size⟩ := by
  have keeps : ∀ a ∈ rows.toList, f.Keeps a :=
    fun a member => keeps a (Array.mem_toList_iff.mp member)
  exact f.layout?_header few (length_body keeps)

theorem rowsAt_file {rows : Array α} (few : rows.size < unit64)
    (keeps : ∀ a ∈ rows, f.Keeps a) :
    f.rowsAt ⟨headerLength, rows.size⟩ (f.file rows) = rows := by
  have keeps : ∀ a ∈ rows.toList, f.Keeps a :=
    fun a member => keeps a (Array.mem_toList_iff.mp member)
  rw [rowsAt, file, List.drop_left' (f.length_header few), ← Array.length_toList,
    rowsOf_body keeps]

end Format

/-! ## Files by their octets -/

/-- A file with a text in its header and words behind it: the mark and the version 1.0, the length
of the rest of the header, the text with spaces up to a line feed, and words of eight octets with
the low one first. -/
structure Encodes (title : String) (words : List UInt64) (file : List UInt8) : Prop where
  front : file.take 10 = [0x93, 0x4E, 0x55, 0x4D, 0x50, 0x59, 1, 0, 118, 0]
  text : ∃ blanks, (file.drop 10).take 118 =
    (title.toList ++ List.replicate blanks ' ' ++ ['\n']).map octetOf
  length : file.length = 128 + 8 * words.length
  octet : ∀ i w k, words[i]? = some w → k < 8 →
    file[128 + 8 * i + k]? = some (UInt8.ofNat (w.toNat >>> (8 * k)))

namespace Format

variable {α : Type} (f : Format α)

theorem encodes_file {rows : Array α} (few : rows.size < unit64) :
    Encodes ("\x7b'descr': '" ++ f.kind ++ "', 'fortran_order': False, 'shape': (" ++
        toString rows.size ++ ("," ++ f.extent ++ "), \x7d"))
      (rows.toList.flatMap f.words) (f.file rows) := by
  have header := f.length_header few
  have body : f.body rows.toList = (rows.toList.flatMap f.words).flatMap wordOctets :=
    List.flatMap_assoc.symm
  rcases f.header_eq few with ⟨blanks, length, parts⟩
  have ten : (mark ++ octetsOf 2 118).length = 10 := by decide
  have whole : f.file rows = (mark ++ octetsOf 2 118) ++
      ((f.title rows.size ++ (List.replicate blanks 0x20 ++ [0x0A])) ++ f.body rows.toList) := by
    rw [file, parts]
    simp only [List.append_assoc]
  refine ⟨?_, ⟨blanks, ?_⟩, ?_, ?_⟩
  · rw [whole, List.take_left' ten]
    decide
  · rw [whole, List.drop_left' ten, List.take_left' length]
    simp only [title, front, back, textOctets, List.map_append, String.toList_append,
      List.map_replicate, List.append_assoc]
    rfl
  · rw [file, List.length_append, header, body, length_flatMap_wordOctets]
    rfl
  · intro i w k here within
    have behind : (f.header rows.size).length ≤ 128 + 8 * i + k := by
      rw [header, headerLength]
      omega
    have place : 128 + 8 * i + k - headerLength = 8 * i + k := by
      rw [headerLength]
      omega
    rw [file, List.getElem?_append_right behind, header, body, place]
    exact getElem?_flatMap_wordOctets here within

end Format

end ArrayFile

open ArrayFile Number

theorem pointFormat_keeps (p : PointBits) : pointFormat.Keeps p := ⟨rfl, rfl⟩

theorem boundaryFormat_keeps {b : Int} (word : Span.isWord b = true) : boundaryFormat.Keeps b :=
  ⟨rfl, ofSignedWord_signedWord word⟩

/-- Arrays whose files can be read: boundaries are signed words, and fewer than there are words. -/
structure Arrays.Storable (a : Arrays PointBits) : Prop where
  words : ∀ b ∈ a.starts, Span.isWord b = true
  few : a.starts.size < unit64

/-- The files of a directory hold arrays. -/
structure Arrays.StoredIn (a : Arrays PointBits) (directory : String) (disk : Disk) : Prop where
  points : ∃ file, disk.read? (joinPath directory "shape_points.npy") = some file ∧
    Encodes ("\x7b'descr': '<f8', 'fortran_order': False, 'shape': (" ++ toString a.points.size ++
        ", 2), \x7d")
      (a.points.toList.flatMap fun p => [p.lat, p.lon]) file
  starts : ∃ file, disk.read? (joinPath directory "shape_buckets.npy") = some file ∧
    Encodes ("\x7b'descr': '<i8', 'fortran_order': False, 'shape': (" ++ toString a.starts.size ++
        ",), \x7d")
      (a.starts.toList.map fun b => (Int64.ofInt b).toUInt64) file

theorem Arrays.storedIn_of_read? {a : Arrays PointBits} {directory : String} {disk : Disk}
    (few : a.points.size < unit64) (few' : a.starts.size < unit64)
    (points : disk.read? (joinPath directory pointFileName) = some (pointFormat.file a.points))
    (starts : disk.read? (joinPath directory boundaryFileName) =
      some (boundaryFormat.file a.starts)) :
    a.StoredIn directory disk := by
  have words : a.starts.toList.flatMap boundaryFormat.words =
      a.starts.toList.map fun b => (Int64.ofInt b).toUInt64 := by
    simp only [boundaryFormat, signedWord_eq]
    rw [List.map_eq_flatMap]
  refine ⟨⟨_, points, pointFormat.encodes_file few⟩, ⟨_, starts, ?_⟩⟩
  rw [← words]
  exact boundaryFormat.encodes_file few'

/-- Arrays that fit and have words as boundaries are a store. -/
theorem ShapeStore.new_self {α : Type} {s : ShapeStore α}
    (words : ∀ b ∈ s.starts, Span.isWord b = true) : new s.toArrays = .ok s := by
  have all : s.starts.all Span.isWord = true := Array.all_eq_true'.mpr words
  unfold new
  rw [if_neg (by rw [all]; decide)]
  split
  · rename_i none
    cases s.back_starts.symm.trans none
  · rename_i last some
    cases s.back_starts.symm.trans some
    rw [dif_pos rfl]

/-- The last boundary of a store is a word, so that it has fewer points than there are words. -/
theorem Arrays.Storable.points {s : ShapeStore PointBits} (storable : s.Storable) :
    s.points.size < unit64 := by
  have size : unit64 = 2 * unit63 := by decide
  have last := storable.words _ (Array.mem_of_back? s.back_starts)
  simp only [Span.isWord, Bool.and_eq_true, decide_eq_true_eq] at last
  omega

end StopAlign
