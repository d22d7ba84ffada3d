import StopAlign.Proofs.Disk
import StopAlign.Proofs.Shape.ArrayFile
import StopAlign.Shape.Holding

/-!
# Reopening — a store that is saved and opened goes on as it was

- `Arrays.yields`, `Arrays.afterAll` : the answers of arrays in memory, and what they become
- `Arrays.Fits`      : no use makes arrays that fit into ones that do not
- `Holding.yields_eq` : answers depend on the arrays alone, wherever they are held
- `Holding.Elsewhere` : no array is mapped from the files of a directory
- `read?_of_save`, `fromFiles_of_save` : what is in the files and what is opened is what was saved
- `reopening_restores` : saving and opening between two uses changes no answer behind them
- `exists_lost`      : a store that is saved into the files that it is mapped from

When an array is read to be written, its file has lost what stood there. The rows of an array that
is mapped from this very file are gone by then.
-/

namespace StopAlign

open ArrayFile Outcome

/-! ## Uses of arrays -/

namespace Arrays

/-- The arrays after a use. -/
def next (a : Arrays PointBits) (u : Use) : Arrays PointBits := (u.on a).2

def afterAll (a : Arrays PointBits) (us : List Use) : Arrays PointBits := us.foldl next a

def yields (a : Arrays PointBits) : List Use → List (Except Fault Yield)
  | [] => []
  | u :: us => (u.on a).1 :: (a.next u).yields us

theorem yields_append (a : Arrays PointBits) (before later : List Use) :
    a.yields (before ++ later) = a.yields before ++ (a.afterAll before).yields later := by
  induction before generalizing a with
  | nil => rfl
  | cons u before ih => exact congrArg ((u.on a).1 :: ·) (ih (a.next u))

/-- The last boundary is the number of points. -/
def Fits {α : Type} (a : Arrays α) : Prop := a.starts.back? = some (a.points.size : Int)

theorem Fits.add {α : Type} {a : Arrays α} (fits : a.Fits) (shapes : List (List α)) :
    (a.add shapes).Fits := by
  induction shapes generalizing a with
  | nil => exact fits
  | cons shape shapes ih =>
    have pushed := (ShapeStore.push ⟨a, fits⟩ shape).back_starts
    exact ih pushed

theorem Fits.next {a : Arrays PointBits} (fits : a.Fits) (u : Use) : (a.next u).Fits := by
  cases u with
  | append shapes => exact fits.add shapes
  | load source =>
    rcases source with ⟨records, _ | fault⟩
    · exact fits.add _
    · exact fits
  | shape index => exact fits
  | size index => exact fits

theorem Fits.afterAll {a : Arrays PointBits} (fits : a.Fits) (us : List Use) :
    (a.afterAll us).Fits := by
  induction us generalizing a with
  | nil => exact fits
  | cons u us ih => exact ih (fits.next u)

end Arrays

/-! ## Uses of a store that is held somewhere -/

namespace Holding

def afterAll (disk : Disk) (h : Holding) (us : List Use) : Holding :=
  us.foldl (fun h u => (h.use disk u).2) h

def yields (disk : Disk) (h : Holding) : List Use → List (Except Fault Yield)
  | [] => []
  | u :: us => (h.use disk u).1 :: yields disk (h.use disk u).2 us

section Uses

variable {disk : Disk} {h : Holding} {a : Arrays PointBits}

theorem arrays_become (h : Holding) (after : Arrays PointBits) :
    (h.become disk after).arrays disk = after := by
  unfold become
  split
  · rename_i same
    exact same.symm
  · rfl

theorem arrays_use (held : h.arrays disk = a) (u : Use) :
    (h.use disk u).1 = (u.on a).1 ∧ (h.use disk u).2.arrays disk = a.next u := by
  subst held
  exact ⟨rfl, arrays_become h _⟩

/-- Answers depend on the arrays alone, wherever they are held. -/
theorem yields_eq (held : h.arrays disk = a) (us : List Use) : h.yields disk us = a.yields us := by
  induction us generalizing h a with
  | nil => rfl
  | cons u us ih =>
    rcases arrays_use held u with ⟨yield, after⟩
    rw [yields, Arrays.yields, yield, ih after]

theorem arrays_afterAll (held : h.arrays disk = a) (us : List Use) :
    (h.afterAll disk us).arrays disk = a.afterAll us := by
  induction us generalizing h a with
  | nil => exact held
  | cons u us ih => exact ih (arrays_use held u).2

end Uses

end Holding

/-! ## Saving and opening -/

/-- The file of an array gives the array back, mapped or not. -/
theorem Held.fromFile_of_read? {α : Type} {f : Format α} {rows : Array α}
    (few : rows.size < Number.unit64) (keeps : ∀ a ∈ rows, f.Keeps a) {disk : Disk} {path : String}
    (read : disk.read? path = some (f.file rows)) (mapped : Bool) :
    ∃ held, fromFile f disk path mapped = some held ∧ held.rows f disk = rows := by
  rcases Disk.octetsAt_of_read? read with ⟨place, located, octets⟩
  have layout := Format.layout?_file few keeps
  have back := Format.rowsAt_file few keeps
  rw [← octets] at layout back
  simp only [fromFile, located, layout, Option.map_some]
  cases mapped with
  | false => exact ⟨_, rfl, back⟩
  | true => exact ⟨_, rfl, back⟩

namespace Holding

/-- No array of a store is mapped from one of the files of a directory. Arrays in memory never
are. -/
def Elsewhere (h : Holding) (directory : String) (disk : Disk) : Prop :=
  ∀ place ∈ h.places, ∀ name ∈ arrayFileNames, disk.locate (joinPath directory name) ≠ .ok place

/-- Arrays hold the same rows on disks that agree where they are mapped from. -/
theorem rows_congr {α : Type} {held : Held α} {f : Format α} {disk other : Disk}
    (same : ∀ place, held.place? = some place → other.octetsAt place = disk.octetsAt place) :
    held.rows f other = held.rows f disk := by
  cases held with
  | own rows => rfl
  | mapped place layout => rw [Held.rows, Held.rows, same place rfl]

/-- What is in the files is what was saved. -/
theorem read?_of_save {disk after : Disk} {h : Holding} {directory : String}
    (saved : h.save directory disk = .ok after) (elsewhere : h.Elsewhere directory after) :
    after.read? (joinPath directory pointFileName) =
        some (pointFormat.file (h.arrays disk).points) ∧
      after.read? (joinPath directory boundaryFileName) =
        some (boundaryFormat.file (h.arrays disk).starts) := by
  rcases saveArrays_eq_ok saved with ⟨seen, seen', points, starts, agree⟩
  -- what an array is read from is not one of the two files, so it has not changed
  have here : h.points.rows pointFormat seen = (h.arrays disk).points :=
    rows_congr fun place mappedFrom =>
      (agree place (elsewhere place (by simp [places, mappedFrom]))).1
  have there : h.starts.rows boundaryFormat seen' = (h.arrays disk).starts :=
    rows_congr fun place mappedFrom =>
      (agree place (elsewhere place (by simp [places, mappedFrom]))).2
  rw [here] at points
  rw [there] at starts
  exact ⟨points, starts⟩

/-- What is opened is what was saved. -/
theorem fromFiles_of_save {disk after : Disk} {h : Holding} {s : ShapeStore PointBits}
    (held : h.arrays disk = s.toArrays) (storable : s.Storable) {directory : String}
    (saved : h.save directory disk = .ok after) (elsewhere : h.Elsewhere directory after)
    (mapped : Bool) :
    ∃ opened, fromFiles after directory mapped = .ok opened ∧ opened.arrays after = s.toArrays := by
  rcases read?_of_save saved elsewhere with ⟨points, starts⟩
  rw [held] at points starts
  rcases Held.fromFile_of_read? storable.points (fun p _ => pointFormat_keeps p) points mapped
    with ⟨held₁, opened₁, rows₁⟩
  rcases Held.fromFile_of_read? storable.few
    (fun b member => boundaryFormat_keeps (storable.words b member)) starts mapped
    with ⟨held₂, opened₂, rows₂⟩
  have arrays : (Holding.mk held₁ held₂).arrays after = s.toArrays := by
    rw [Holding.arrays, rows₁, rows₂]
  refine ⟨⟨held₁, held₂⟩, ?_, arrays⟩
  simp only [fromFiles, points, starts, opened₁, opened₂, arrays,
    ShapeStore.new_self storable.words]
  rfl

theorem storedIn_of_save {disk after : Disk} {h : Holding} {s : ShapeStore PointBits}
    (held : h.arrays disk = s.toArrays) (storable : s.Storable) {directory : String}
    (saved : h.save directory disk = .ok after) (elsewhere : h.Elsewhere directory after) :
    s.StoredIn directory after := by
  rcases read?_of_save saved elsewhere with ⟨points, starts⟩
  rw [held] at points starts
  exact Arrays.storedIn_of_read? storable.points storable.few points starts

end Holding

/-- Whatever a store has been asked, in memory or mapped from files, once it is saved to files that
it is not mapped from they hold the points and boundaries that it has come to, bit for bit and each
octet where the format has it. What is opened from there, mapped or not, answers everything that is
asked from then on as the store that was never saved. -/
theorem reopening_restores {disk after : Disk} {h : Holding} {s : ShapeStore PointBits}
    (held : h.arrays disk = s.toArrays) (before later : List Use) {directory : String}
    (storable : (s.afterAll before).Storable)
    (saved : (h.afterAll disk before).save directory disk = .ok after)
    (elsewhere : (h.afterAll disk before).Elsewhere directory after) (mapped : Bool) :
    (s.afterAll before).StoredIn directory after ∧
      ∃ opened, Holding.fromFiles after directory mapped = .ok opened ∧
        opened.arrays after = s.afterAll before ∧
        h.yields disk before ++ opened.yields after later = h.yields disk (before ++ later) := by
  have fits : (s.afterAll before).Fits := Arrays.Fits.afterAll s.back_starts before
  have come : (h.afterAll disk before).arrays disk = s.afterAll before :=
    Holding.arrays_afterAll held before
  rcases Holding.fromFiles_of_save (s := ⟨s.afterAll before, fits⟩) come storable saved elsewhere
    mapped with ⟨opened, found, arrays⟩
  refine ⟨Holding.storedIn_of_save (s := ⟨s.afterAll before, fits⟩) come storable saved elsewhere,
    opened, found, arrays, ?_⟩
  rw [Holding.yields_eq held, Holding.yields_eq held, Holding.yields_eq arrays,
    Arrays.yields_append]

/-! ## Files that are saved twice -/

/-- Save a store, open its files mapped, and save what has been opened. -/
def savedTwice (a : Arrays PointBits) (first second : String) :
    Except Fault (Disk × Holding × Disk) := do
  let disk ← (Holding.own a).save first .empty
  let h ← Holding.fromFiles disk first true
  let after ← h.save second disk
  return (disk, h, after)

theorem savedTwice_eq_ok {a : Arrays PointBits} {first second : String} {disk after : Disk}
    {h : Holding} (ended : savedTwice a first second = .ok (disk, h, after)) :
    (Holding.own a).save first .empty = .ok disk ∧ Holding.fromFiles disk first true = .ok h ∧
      h.save second disk = .ok after := by
  rcases bind_eq_ok.mp ended with ⟨disk₁, before, ended⟩
  rcases bind_eq_ok.mp ended with ⟨h₁, opened, ended⟩
  rcases bind_eq_ok.mp ended with ⟨after₁, saved, ended⟩
  cases ended
  exact ⟨before, opened, saved⟩

/-- Words that are no number, a zero with a sign and infinities, between the lowest and the highest
boundary. -/
def extremes : ShapeStore PointBits where
  points := #[⟨0x7FF0000000000001, 0x8000000000000000⟩, ⟨0x7FF0000000000000, 0xFFF0000000000000⟩,
    ⟨0xFFFFFFFFFFFFFFFF, 0x7FF8000000000000⟩]
  starts := #[-9223372036854775808, 9223372036854775807, 3]
  back_starts := rfl

theorem storable_extremes : extremes.Storable where
  words := by decide
  few := by decide

/-- A store that is mapped from one directory is saved to another one. -/
theorem reopening_restores_extremes :
    ∃ (disk : Disk) (h : Holding) (after : Disk),
      (h.arrays disk = extremes.toArrays ∧ h.places ≠ [] ∧
        (extremes.afterAll [.size 0]).Storable ∧
        (h.afterAll disk [.size 0]).save "second" disk = .ok after ∧
        (h.afterAll disk [.size 0]).Elsewhere "second" after) ∧
      (extremes.afterAll [.size 0]).StoredIn "second" after ∧
      ∃ opened, Holding.fromFiles after "second" true = .ok opened ∧
        opened.arrays after = extremes.afterAll [.size 0] ∧
        h.yields disk [.size 0] ++ opened.yields after [.append [[⟨0, 0⟩]], .shape (some 2)] =
          h.yields disk ([.size 0] ++ [.append [[⟨0, 0⟩]], .shape (some 2)]) := by
  have twice : ∃ r, savedTwice extremes.toArrays "first" "second" = .ok r ∧
      (decide (r.2.1.arrays r.1 = extremes.toArrays) && decide (r.2.1.places ≠ []) &&
        decide (r.2.1.afterAll r.1 [.size 0] = r.2.1) &&
        r.2.1.places.all fun place => arrayFileNames.all fun name =>
          decide (r.2.2.locate (joinPath "second" name) ≠ .ok place)) = true :=
    exists_ok_of_any (by decide +kernel)
  rcases twice with ⟨⟨disk, h, after⟩, ended, checked⟩
  simp only [Bool.and_eq_true, decide_eq_true_eq, List.all_eq_true] at checked
  rcases checked with ⟨⟨⟨held, somewhere⟩, still⟩, apart⟩
  have saved : (h.afterAll disk [.size 0]).save "second" disk = .ok after := by
    rw [still]
    exact (savedTwice_eq_ok ended).2.2
  have elsewhere : (h.afterAll disk [.size 0]).Elsewhere "second" after := by
    rw [still]
    exact apart
  refine ⟨disk, h, after, ⟨held, somewhere, storable_extremes, saved, elsewhere⟩, ?_⟩
  exact reopening_restores held [.size 0] [.append [[⟨0, 0⟩]], .shape (some 2)]
    storable_extremes saved elsewhere true

/-- One shape of two points. -/
def twoPoints : ShapeStore PointBits where
  points := #[⟨0, 0x3FF0000000000000⟩, ⟨0, 0x4000000000000000⟩]
  starts := #[0, 2]
  back_starts := rfl

/-- A store that is saved into the files that it is mapped from loses what it held, and what has
been written cannot be opened. -/
theorem exists_lost :
    ∃ (disk : Disk) (h : Holding) (after : Disk),
      (twoPoints.Storable ∧ (Holding.own twoPoints.toArrays).save "store" .empty = .ok disk ∧
        Holding.fromFiles disk "store" true = .ok h ∧ h.arrays disk = twoPoints.toArrays ∧
        h.save "store" disk = .ok after) ∧
      h.yields disk [.size 0] = [.ok (.count 2)] ∧ h.yields after [.size 0] = [.ok (.count 0)] ∧
      ∀ mapped, Holding.fromFiles after "store" mapped = .error (.boundaryEnd 0 2) := by
  have twice : ∃ r, savedTwice twoPoints.toArrays "store" "store" = .ok r ∧
      (decide (r.2.1.arrays r.1 = twoPoints.toArrays) &&
        decide (r.2.1.arrays r.2.2 = ⟨#[⟨0, 0⟩, ⟨0, 0⟩], #[0, 0]⟩) &&
        [true, false].all fun mapped =>
          decide (Holding.fromFiles r.2.2 "store" mapped = .error (.boundaryEnd 0 2))) = true :=
    exists_ok_of_any (by decide +kernel)
  rcases twice with ⟨⟨disk, h, after⟩, ended, checked⟩
  simp only [Bool.and_eq_true, decide_eq_true_eq, List.all_eq_true] at checked
  rcases checked with ⟨⟨held, lost⟩, broken⟩
  rcases savedTwice_eq_ok ended with ⟨before, opened, saved⟩
  refine ⟨disk, h, after, ⟨⟨by decide, by decide⟩, before, opened, held, saved⟩, ?_, ?_, ?_⟩
  · rw [Holding.yields_eq held]
    rfl
  · rw [Holding.yields_eq lost]
    rfl
  · intro mapped
    exact broken mapped (by cases mapped <;> decide)

end StopAlign
