import StopAlign.Disk
import StopAlign.Proofs.Outcome
import StopAlign.Proofs.Path
import StopAlign.Shape.ArrayFile

/-!
# Disk — where can be written

- `Disk.Alike`    : disks with directories and files in the same places
- `walk_alike`, `write_alike` : they take the same paths, whatever is in the files
- `saveArrays_alike` : arrays can be saved where other ones can
- `makeAlong_eq_ok`  : a directory that was made is there, with those that were there before
- `write_ne_absent`  : nothing is missing on the way to a file of a directory that is there
- `read?_write_other` : a file that is written leaves the files of other places as they are
- `octetsAt_make`    : so does a directory that is made
- `locate_joinPath`  : where a name below a directory leads
- `saveArrays_refusal` : why arrays are refused
- `saveArrays_eq_ok` : what is in their files when they have been saved
-/

namespace StopAlign

open Outcome

def Node.isDirectory : Node → Bool
  | .directory => true
  | .file _ => false

namespace Disk

/-- Disks with directories and files in the same places. -/
def Alike (d d' : Disk) : Prop :=
  ∀ l, (d'.nodes.find? l).map Node.isDirectory = (d.nodes.find? l).map Node.isDirectory

theorem Alike.refl (d : Disk) : d.Alike d := fun _ => rfl

theorem holdsDirectory_eq (d : Disk) (l : Location) :
    d.holdsDirectory l = ((d.nodes.find? l).map Node.isDirectory == some true) := by
  unfold holdsDirectory
  cases d.nodes.find? l with
  | none => rfl
  | some node => cases node <;> rfl

section Alike

variable {d d' : Disk} (alike : d.Alike d')

include alike

theorem walk_alike (l : Location) (steps : List String) : d'.walk l steps = d.walk l steps := by
  -- of a node on its way a walk asks only whether it is a directory
  induction steps generalizing l with
  | nil => rfl
  | cons step steps ih =>
    have here := alike l
    rw [walk, walk]
    cases old : d.nodes.find? l with
    | none =>
      rw [old] at here
      rw [Option.map_eq_none_iff.mp here]
    | some node =>
      rw [old] at here
      rcases Option.map_eq_some_iff.mp here with ⟨node', new, same⟩
      rw [new]
      cases node with
      | directory =>
        cases node' with
        | directory => simp only [ih]
        | file _ => cases same
      | file _ =>
        cases node' with
        | directory => cases same
        | file _ => rfl

theorem locate_alike (path : String) : d'.locate path = d.locate path :=
  walk_alike alike (origin path) (pathSteps path)

theorem holdsDirectory_alike (l : Location) : d'.holdsDirectory l = d.holdsDirectory l := by
  rw [holdsDirectory_eq, holdsDirectory_eq, alike l]

theorem write_alike {path : String} {octets : List UInt8} {e : Disk}
    (h : d.write path octets = .ok e) (octets' : List UInt8) :
    ∃ e', d'.write path octets' = .ok e' ∧ e.Alike e' := by
  unfold write at h ⊢
  rw [locate_alike alike]
  cases located : d.locate path with
  | error flaw =>
    rw [located] at h
    cases h
  | ok l =>
    simp only [located, holdsDirectory_alike alike] at h ⊢
    by_cases held : d.holdsDirectory l = true
    · rw [if_pos held] at h
      cases h
    · rw [if_neg held] at h ⊢
      cases h
      refine ⟨_, rfl, ?_⟩
      intro k
      simp only [Dictionary.find?_put]
      by_cases same : l = k
      · rw [if_pos same, if_pos same]
        rfl
      · rw [if_neg same, if_neg same]
        exact alike k

end Alike

/-! ## Directories that are there -/

section There

variable {d d' : Disk}

theorem walk_append (l : Location) (front back : List String) :
    d.walk l (front ++ back) = d.walk l front >>= fun goal => d.walk goal back := by
  induction front generalizing l with
  | nil => rfl
  | cons step front ih =>
    rw [List.cons_append, walk, walk]
    cases d.nodes.find? l with
    | none => rfl
    | some node =>
      cases node with
      | file octets => rfl
      | directory =>
        by_cases long : nameLimit < step.utf8ByteSize
        · simp only [if_pos long]
          rfl
        · simp only [if_neg long, ih]

/-- What stands in a directory may be too long a name, but it is not missing on the way. -/
theorem walk_concat_ne_absent {start goal : Location} {front : List String} {step : String}
    (walked : d.walk start front = .ok goal) (held : d.holdsDirectory goal = true) :
    d.walk start (front ++ [step]) ≠ .error .absent := by
  have here : d.nodes.find? goal = some .directory := by simpa [holdsDirectory] using held
  rw [walk_append, walked]
  change d.walk goal [step] ≠ .error .absent
  rw [walk, here]
  by_cases long : nameLimit < step.utf8ByteSize
  · simp only [if_pos long]
    intro absent
    cases absent
  · simp only [if_neg long]
    intro absent
    cases absent

theorem locate_of_write_absent {path : String} {octets : List UInt8}
    (h : d.write path octets = .error .absent) : d.locate path = .error .absent := by
  unfold write at h
  cases located : d.locate path with
  | error flaw =>
    rw [located] at h
    cases h
    rfl
  | ok l =>
    rw [located] at h
    simp only at h
    split at h <;> cases h

/-- Nothing is missing on the way to a file of a directory that is there. -/
theorem write_ne_absent {path : String} {l : Location}
    (there : d.walk (origin path) (pathSteps path).dropLast = .ok l)
    (held : d.holdsDirectory l = true) (octets : List UInt8) :
    d.write path octets ≠ .error .absent := by
  intro absent
  have lost := locate_of_write_absent absent
  -- the walk to the file is the one to its directory and one step more
  rw [locate] at lost
  rcases List.eq_nil_or_concat (pathSteps path) with none | ⟨front, step, parts⟩
  · rw [none] at lost
    cases lost
  · rw [parts, List.concat_eq_append] at lost there
    rw [List.dropLast_concat] at there
    exact walk_concat_ne_absent there held lost

theorem write_ne_absent_of_isDirectory {path : String}
    (h : d.isDirectory (parentPath path) = true) (octets : List UInt8) :
    d.write path octets ≠ .error .absent := by
  unfold isDirectory at h
  cases located : d.locate (parentPath path) with
  | error flaw =>
    rw [located] at h
    cases h
  | ok l =>
    simp only [located, Bool.and_eq_true] at h
    have above : origin (parentPath path) = origin path := by
      rw [origin, origin, fromRoot_parentPath]
    rw [locate, above, pathSteps_parentPath] at located
    exact write_ne_absent located h.2 octets

/-! ### Directories that are made -/

theorem holdsDirectory_settle {k : Location} (held : d.holdsDirectory k = true) (l : Location) :
    (d.settle l).holdsDirectory k = true := by
  unfold settle
  split
  · exact held
  · by_cases same : l = k
    · subst same
      simp [holdsDirectory]
    · simpa [holdsDirectory, Dictionary.find?_put, same] using held

theorem makeAlong_error {l : Location} {steps : List String} {flaw : PathFlaw}
    (h : d.makeAlong l steps = .error flaw) : flaw ≠ .absent := by
  induction steps generalizing d l with
  | nil =>
    rw [makeAlong] at h
    split at h <;> cases h
    decide
  | cons step steps ih =>
    rw [makeAlong] at h
    split at h
    · cases h
      decide
    · split at h
      · cases h
        decide
      · exact ih h

/-- A directory that was made is there, with those that were there before. -/
theorem makeAlong_eq_ok {l : Location} {steps : List String} (h : d.makeAlong l steps = .ok d') :
    (∀ k, d.holdsDirectory k = true → d'.holdsDirectory k = true) ∧
      ∃ goal, d'.walk l steps = .ok goal ∧ d'.holdsDirectory goal = true := by
  induction steps generalizing d l with
  | nil =>
    rw [makeAlong] at h
    split at h
    · rename_i held
      cases h
      exact ⟨fun _ there => there, l, rfl, held⟩
    · cases h
  | cons step steps ih =>
    rw [makeAlong] at h
    split at h
    · cases h
    · rename_i here
      have held : d.holdsDirectory l = true := by simpa using here
      split at h
      · cases h
      · rename_i short
        rcases ih h with ⟨kept, goal, walked, there⟩
        -- the directory of this step is still there when those behind it have been made
        have old : ∀ k, d.holdsDirectory k = true → d'.holdsDirectory k = true :=
          fun k there => kept k (holdsDirectory_settle there _)
        have still : d'.nodes.find? l = some .directory := by
          simpa [holdsDirectory] using old l held
        refine ⟨old, goal, ?_, there⟩
        rw [walk, still]
        simp only [if_neg short]
        exact walked

theorem make_eq_ok {path : String} (h : d.make path = .ok d') :
    ∃ goal, d'.locate path = .ok goal ∧ d'.holdsDirectory goal = true := by
  unfold make at h
  split at h
  · cases h
  · split at h
    · rename_i made
      cases h
      exact (makeAlong_eq_ok made).2
    · cases h

/-- A directory is refused for a null character in its path only. -/
theorem make_refusal {path : String} {fault : Fault} (h : d.make path = .error fault)
    (refusal : fault.isRefusal = true) : hasNull path = true := by
  unfold make at h
  split at h
  · rename_i null
    exact null
  · split at h
    · cases h
    · rename_i flaw failed
      cases h
      exact absurd (of_decide_eq_true refusal) (makeAlong_error failed)

/-- A file is written at a location that is no directory. -/
theorem write_eq_ok {path : String} {octets : List UInt8} (h : d.write path octets = .ok d') :
    ∃ l, d.locate path = .ok l ∧ d.holdsDirectory l = false ∧
      d' = ⟨d.nodes.put l (.file octets)⟩ := by
  unfold write at h
  cases located : d.locate path with
  | error flaw =>
    rw [located] at h
    cases h
  | ok l =>
    simp only [located] at h
    by_cases occupied : d.holdsDirectory l = true
    · rw [if_pos occupied] at h
      cases h
    · rw [if_neg occupied] at h
      cases h
      exact ⟨l, rfl, Bool.eq_false_iff.mpr occupied, rfl⟩

/-- A file that is written leaves every directory where it was. -/
theorem there_of_write {path : String} {octets : List UInt8} (h : d.write path octets = .ok d')
    {start goal : Location} {steps : List String} (walked : d.walk start steps = .ok goal)
    (held : d.holdsDirectory goal = true) :
    d'.walk start steps = .ok goal ∧ d'.holdsDirectory goal = true := by
  rcases write_eq_ok h with ⟨l, -, free, rfl⟩
  refine ⟨walk_put_file free octets walked, ?_⟩
  have other : l ≠ goal := fun same => Bool.eq_false_iff.mp free (same ▸ held)
  simpa [holdsDirectory, Dictionary.find?_put, other] using held

/-! ### Files beside one that is written -/

/-- A file that is written turns no path aside. -/
theorem locate_write {path other : String} {octets : List UInt8} {k : Location}
    (h : d.write path octets = .ok d') (there : d.locate other = .ok k) :
    d'.locate other = .ok k := by
  rcases write_eq_ok h with ⟨_, -, free, rfl⟩
  exact walk_put_file free octets there

/-- A file that is written leaves the files of other places as they are. -/
theorem read?_write_other {path other : String} {octets : List UInt8} {l k : Location}
    (h : d.write path octets = .ok d') (here : d.locate path = .ok l)
    (there : d.locate other = .ok k) (apart : l ≠ k) : d'.read? other = d.read? other := by
  have still := locate_write h there
  rcases write_eq_ok h with ⟨_, here', -, rfl⟩
  cases here.symm.trans here'
  simp only [read?, still, there, Dictionary.find?_put, if_neg apart]

theorem octetsAt_write_other {path : String} {octets : List UInt8} {l k : Location}
    (h : d.write path octets = .ok d') (here : d.locate path = .ok l) (apart : k ≠ l) :
    d'.octetsAt k = d.octetsAt k := by
  rcases write_eq_ok h with ⟨_, here', -, rfl⟩
  cases here.symm.trans here'
  simp only [octetsAt, Dictionary.find?_put, if_neg apart.symm]

/-- Directories that are made leave all files as they are. -/
theorem octetsAt_settle (l k : Location) : (d.settle l).octetsAt k = d.octetsAt k := by
  unfold settle
  split
  · rfl
  · rename_i free
    by_cases same : l = k
    · subst same
      have nothing : d.nodes.find? l = none := by simpa [Dictionary.contains] using free
      simp only [octetsAt, Dictionary.find?_put_self, nothing]
    · simp only [octetsAt, Dictionary.find?_put, if_neg same]

theorem octetsAt_makeAlong {l : Location} {steps : List String}
    (h : d.makeAlong l steps = .ok d') (k : Location) : d'.octetsAt k = d.octetsAt k := by
  induction steps generalizing d l with
  | nil =>
    rw [makeAlong] at h
    split at h <;> cases h
    rfl
  | cons step steps ih =>
    rw [makeAlong] at h
    split at h
    · cases h
    · split at h
      · cases h
      · exact (ih h).trans (octetsAt_settle _ k)

theorem octetsAt_make {path : String} (h : d.make path = .ok d') (k : Location) :
    d'.octetsAt k = d.octetsAt k := by
  unfold make at h
  split at h
  · cases h
  · split at h
    · rename_i made
      cases h
      exact octetsAt_makeAlong made k
    · cases h

/-- A file that is read stands at the location of its path. -/
theorem octetsAt_of_read? {path : String} {octets : List UInt8} (h : d.read? path = some octets) :
    ∃ l, d.locate path = .ok l ∧ d.octetsAt l = octets := by
  unfold read? at h
  cases located : d.locate path with
  | error flaw =>
    rw [located] at h
    cases h
  | ok l =>
    simp only [located] at h
    refine ⟨l, rfl, ?_⟩
    unfold octetsAt
    split at h
    · exact Option.some.inj h
    · cases h

/-- Where a name below a directory leads. -/
theorem locate_joinPath {directory name : String} {goal : Location}
    (below : fromRoot name = false) (one : pathSteps name = [name]) (onto : name ≠ "..")
    (short : name.utf8ByteSize ≤ nameLimit)
    (there : d.walk (origin directory) (pathSteps directory) = .ok goal)
    (held : d.holdsDirectory goal = true) :
    d.locate (joinPath directory name) = .ok (goal ++ [name]) := by
  have here : d.nodes.find? goal = some .directory := by simpa [holdsDirectory] using held
  have start : origin (joinPath directory name) = origin directory := by
    rw [origin, origin, fromRoot_joinPath directory below]
  have last : d.walk goal [name] = .ok (goal ++ [name]) := by
    simp only [walk, here, if_neg (Nat.not_lt.mpr short), onward, if_neg onto]
    rfl
  rw [locate, start, pathSteps_joinPath directory below, one, walk_append, there]
  exact last

/-- The directory of a path is there once it has been made. -/
theorem there_of_make {directory : String} (h : d.make (normalPath directory) = .ok d') :
    ∃ goal, d'.walk (origin directory) (pathSteps directory) = .ok goal ∧
      d'.holdsDirectory goal = true := by
  rcases make_eq_ok h with ⟨goal, located, held⟩
  have start : origin (normalPath directory) = origin directory := by
    rw [origin, origin, fromRoot_normalPath]
  rw [locate, start, pathSteps_normalPath] at located
  exact ⟨goal, located, held⟩

end There

end Disk

/-! ## Stores -/

theorem writeIn_eq_ok {directory name : String} {d e : Disk} {octets : List UInt8} :
    writeIn directory d (name, octets) = .ok e ↔
      d.write (joinPath directory name) octets = .ok e := by
  simp only [writeIn]
  cases d.write (joinPath directory name) octets with
  | error flaw =>
    constructor
    · intro h
      cases h
    · intro h
      cases h
  | ok after =>
    constructor
    · intro h
      cases h
      rfl
    · intro h
      cases h
      rfl

theorem writeIn_alike {d d' : Disk} (alike : d.Alike d') {directory name : String}
    {octets : List UInt8} {e : Disk} (h : writeIn directory d (name, octets) = .ok e)
    (octets' : List UInt8) :
    ∃ e', writeIn directory d' (name, octets') = .ok e' ∧ e.Alike e' := by
  rcases Disk.write_alike alike (writeIn_eq_ok.mp h) octets' with ⟨e', again, same⟩
  exact ⟨e', writeIn_eq_ok.mpr again, same⟩

/-- A name is written into a directory that is there, or else not for want of anything. -/
theorem writeIn_error {directory name step : String} {d : Disk} (below : fromRoot name = false)
    (one : pathSteps name = [step]) {l : Location}
    (there : d.walk (Disk.origin directory) (pathSteps directory) = .ok l)
    (held : d.holdsDirectory l = true) {octets : List UInt8} {fault : Fault}
    (h : writeIn directory d (name, octets) = .error fault) : fault.isRefusal = false := by
  have origin : Disk.origin (joinPath directory name) = Disk.origin directory := by
    rw [Disk.origin, Disk.origin, fromRoot_joinPath directory below]
  have steps : (pathSteps (joinPath directory name)).dropLast = pathSteps directory := by
    rw [pathSteps_joinPath directory below, one, List.dropLast_concat]
  rw [← origin, ← steps] at there
  simp only [writeIn] at h
  cases written : d.write (joinPath directory name) octets with
  | ok after =>
    rw [written] at h
    cases h
  | error flaw =>
    rw [written] at h
    cases h
    refine decide_eq_false fun absent => ?_
    subst absent
    exact Disk.write_ne_absent there held octets written

section Arrays

variable {α : Type} {f : ArrayFile.Format α} {rows rows' : Disk → Array α} {directory name : String}
  {d e : Disk}

theorem writeArray_alike {d' : Disk} (alike : d.Alike d')
    (h : writeArray f directory name rows d = .ok e) :
    ∃ e', writeArray f directory name rows' d' = .ok e' ∧ e.Alike e' := by
  rcases bind_eq_ok.mp h with ⟨begun, started, ended⟩
  rcases writeIn_alike alike started _ with ⟨begun', again, alike⟩
  rcases writeIn_alike alike ended _ with ⟨e', again', alike⟩
  exact ⟨e', bind_eq_ok.mpr ⟨begun', again, again'⟩, alike⟩

theorem there_of_writeArray (h : writeArray f directory name rows d = .ok e)
    {start goal : Location} {steps : List String} (walked : d.walk start steps = .ok goal)
    (held : d.holdsDirectory goal = true) :
    e.walk start steps = .ok goal ∧ e.holdsDirectory goal = true := by
  rcases bind_eq_ok.mp h with ⟨begun, started, ended⟩
  rcases Disk.there_of_write (writeIn_eq_ok.mp started) walked held with ⟨walked, held⟩
  exact Disk.there_of_write (writeIn_eq_ok.mp ended) walked held

theorem writeArray_error {step : String} (below : fromRoot name = false)
    (one : pathSteps name = [step]) {l : Location}
    (there : d.walk (Disk.origin directory) (pathSteps directory) = .ok l)
    (held : d.holdsDirectory l = true) {fault : Fault}
    (h : writeArray f directory name rows d = .error fault) : fault.isRefusal = false := by
  rcases bind_eq_error.mp h with first | ⟨begun, started, second⟩
  · exact writeIn_error below one there held first
  · rcases Disk.there_of_write (writeIn_eq_ok.mp started) there held with ⟨there, held⟩
    exact writeIn_error below one there held second

/-- The rows are read on a disk that differs in the file of the array only, and go to this file.
Files elsewhere stay as they are. -/
theorem writeArray_eq_ok (h : writeArray f directory name rows d = .ok e) {l : Location}
    (here : d.locate (joinPath directory name) = .ok l) :
    (∃ begun : Disk, e.read? (joinPath directory name) = some (f.file (rows begun)) ∧
      ∀ k, k ≠ l → begun.octetsAt k = d.octetsAt k) ∧
      (∀ k, k ≠ l → e.octetsAt k = d.octetsAt k) ∧
      ∀ other k, d.locate other = .ok k → k ≠ l → e.read? other = d.read? other := by
  rcases bind_eq_ok.mp h with ⟨begun, started, ended⟩
  have started := writeIn_eq_ok.mp started
  have ended := writeIn_eq_ok.mp ended
  have still := Disk.locate_write started here
  have first : ∀ k, k ≠ l → begun.octetsAt k = d.octetsAt k :=
    fun k apart => Disk.octetsAt_write_other started here apart
  refine ⟨⟨begun, Disk.read?_write ended, first⟩, ?_, ?_⟩
  · intro k apart
    exact (Disk.octetsAt_write_other ended still apart).trans (first k apart)
  · intro other k there apart
    exact (Disk.read?_write_other ended still (Disk.locate_write started there) apart.symm).trans
      (Disk.read?_write_other started here there apart.symm)

end Arrays

section Saves

variable {points points' : Disk → Array PointBits} {starts starts' : Disk → Array Int}
  {directory : String} {d e : Disk}

/-- Arrays can be saved where other ones can. -/
theorem saveArrays_alike (h : saveArrays points starts directory d = .ok e) :
    ∃ e', saveArrays points' starts' directory d = .ok e' ∧ e.Alike e' := by
  rcases bind_eq_ok.mp h with ⟨made, making, h⟩
  rcases bind_eq_ok.mp h with ⟨first, written, written'⟩
  -- the boundaries go to a disk that differs in the points
  rcases writeArray_alike (.refl made) written with ⟨first', again, alike⟩
  rcases writeArray_alike alike written' with ⟨second', again', alike'⟩
  exact ⟨second', bind_eq_ok.mpr ⟨made, making, bind_eq_ok.mpr ⟨first', again, again'⟩⟩, alike'⟩

/-- Arrays are refused for a null character in the path of their directory only. -/
theorem saveArrays_refusal {fault : Fault} (h : saveArrays points starts directory d = .error fault)
    (refusal : fault.isRefusal = true) : Disk.hasNull (normalPath directory) = true := by
  rcases bind_eq_error.mp h with making | ⟨made, making, h⟩
  · exact Disk.make_refusal making refusal
  exfalso
  rcases Disk.there_of_make making with ⟨goal, located, held⟩
  -- both files stand in the directory that has been made
  have other : fault.isRefusal = false := by
    rcases bind_eq_error.mp h with first | ⟨d₁, written, second⟩
    · exact writeArray_error rfl rfl located held first
    · rcases there_of_writeArray written located held with ⟨located₁, held₁⟩
      exact writeArray_error rfl rfl located₁ held₁ second
  rw [refusal] at other
  cases other

theorem locate_arrayFile {name : String} (known : name ∈ arrayFileNames) {goal : Location}
    (there : d.walk (Disk.origin directory) (pathSteps directory) = .ok goal)
    (held : d.holdsDirectory goal = true) :
    d.locate (joinPath directory name) = .ok (goal ++ [name]) := by
  simp only [arrayFileNames, List.mem_cons, List.not_mem_nil, or_false] at known
  rcases known with rfl | rfl
  · exact Disk.locate_joinPath rfl rfl (by decide) (by decide) there held
  · exact Disk.locate_joinPath rfl rfl (by decide) (by decide) there held

/-- Each array is read on a disk that differs from the one before in the two files at most, and what
is read is written to its file. -/
theorem saveArrays_eq_ok (h : saveArrays points starts directory d = .ok e) :
    ∃ seen seen' : Disk,
      e.read? (joinPath directory pointFileName) = some (pointFormat.file (points seen)) ∧
      e.read? (joinPath directory boundaryFileName) = some (boundaryFormat.file (starts seen')) ∧
      ∀ place, (∀ name ∈ arrayFileNames, e.locate (joinPath directory name) ≠ .ok place) →
        seen.octetsAt place = d.octetsAt place ∧ seen'.octetsAt place = d.octetsAt place := by
  rcases bind_eq_ok.mp h with ⟨made, making, h⟩
  rcases bind_eq_ok.mp h with ⟨first, written, written'⟩
  -- the directory that was made is there when the second file is written, and afterwards
  rcases Disk.there_of_make making with ⟨goal, located, held⟩
  rcases there_of_writeArray written located held with ⟨located₁, held₁⟩
  rcases there_of_writeArray written' located₁ held₁ with ⟨located₂, held₂⟩
  have isPoints : pointFileName ∈ arrayFileNames := by simp [arrayFileNames]
  have isStarts : boundaryFileName ∈ arrayFileNames := by simp [arrayFileNames]
  have apart : goal ++ [pointFileName] ≠ goal ++ [boundaryFileName] := by
    simp [boundaryFileName, pointFileName]
  rcases writeArray_eq_ok written (locate_arrayFile isPoints located held) with
    ⟨⟨seen, points, agree⟩, between, -⟩
  rcases writeArray_eq_ok written' (locate_arrayFile isStarts located₁ held₁) with
    ⟨⟨seen', starts, agree'⟩, -, others⟩
  -- the points are still there when the boundaries have been written
  have kept := others _ _ (locate_arrayFile isPoints located₁ held₁) apart
  refine ⟨seen, seen', kept.trans points, starts, ?_⟩
  intro place elsewhere
  have other : ∀ name ∈ arrayFileNames, place ≠ goal ++ [name] := by
    rintro name known rfl
    exact elsewhere name known (locate_arrayFile known located₂ held₂)
  have same : made.octetsAt place = d.octetsAt place := Disk.octetsAt_make making place
  constructor
  · exact (agree place (other _ isPoints)).trans same
  · exact (agree' place (other _ isStarts)).trans ((between place (other _ isPoints)).trans same)

end Saves

end StopAlign
