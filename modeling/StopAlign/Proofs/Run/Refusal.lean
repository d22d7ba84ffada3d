import StopAlign.Proofs.Disk
import StopAlign.Proofs.Run
import StopAlign.Proofs.Run.Stages
import StopAlign.Proofs.Trip.Order
import StopAlign.Proofs.Trip.Lines

/-!
# Refusal — what a run that is refused leaves on the disk

- `writeTable_refusal`, `writeLayer_refusal` : why a file is refused
- `writing_refusal`, `exporting_refusal`, `keeping_refusal` : and the three jobs that write
- `Late`             : the refusals of a run that has written files
- `session_refused`  : a run that is refused has left the disk alone, or is refused late

All trips are matched before the first file is written, so only a name with a null character and a
trip that cannot be drawn are found too late.
-/

namespace StopAlign

open Outcome

/-! ## Files -/

/-- A table is refused for a null character in its path only. -/
theorem writeTable_refusal {path : String} {octets : List UInt8} {d : Disk} {fault : Fault}
    (h : writeTable path octets d = .error fault) (refusal : fault.isRefusal = true) :
    Disk.hasNull path = true := by
  unfold writeTable at h
  dsimp only at h
  split at h
  · cases h
    cases refusal
  · split at h
    · cases h
      cases refusal
    · rename_i there
      split at h
      · assumption
      · split at h
        · cases h
        · -- of the flaws of paths only a missing directory is refused, and it has been asked for
          rename_i flaw written
          cases h
          have absent : flaw = .absent := of_decide_eq_true refusal
          subst absent
          exact absurd written (Disk.write_ne_absent_of_isDirectory (by simpa using there) octets)

theorem writeLayer_refusal {path : String} {octets : List UInt8} {d : Disk} {fault : Fault}
    (h : writeLayer path octets d = .error fault) (refusal : fault.isRefusal = true) :
    Disk.hasNull path = true := by
  unfold writeLayer at h
  split at h
  · assumption
  · split at h
    · cases h
    · cases h
      cases refusal
    · cases h
      cases refusal

/-! ## Jobs -/

section Jobs

variable {s : Settings} {e f : Effects} {fault : Fault} (refusal : fault.isRefusal = true)

include refusal

/-- The table of offsets is refused with the disk as it was, or for its name. -/
theorem writing_refusal {rows : List OffsetRow}
    (h : (writeOffsetTable s rows).run.run e = (.error fault, f)) :
    f.disk = e.disk ∨ Disk.hasNull (joinPath s.outputDirectory s.offsetsName) = true := by
  rcases Job.run_bind_eq_error.mp h with making | ⟨_, e₁, -, h⟩
  · exact .inl (congrArg Effects.disk (Job.run_onDisk_eq_error.mp making).2)
  rcases Job.run_bind_eq_error.mp h with writing | ⟨_, e₂, -, last⟩
  · exact .inr (writeTable_refusal (Job.run_onDisk_eq_error.mp writing).1 refusal)
  · cases last

/-- The layer is refused with the disk as it was, for its name or since it cannot be drawn. -/
theorem exporting_refusal {m : Matched} (h : (exporting s m).run.run e = (.error fault, f)) :
    f.disk = e.disk ∧ s.exportSegments = true ∧
      (Disk.hasNull (joinPath s.outputDirectory s.segmentsName) = true ∨
        matchedSegments (m.net s) m.ledger m.trips = .error fault) := by
  unfold exporting at h
  split at h
  swap
  · cases h
  rename_i asked
  rw [map_eq_pure_bind] at h
  rcases Job.run_bind_eq_error.mp h with h | ⟨_, _, -, last⟩
  swap
  · cases last
  rcases Job.run_bind_eq_error.mp h with drawing | ⟨lines, e₁, drawn, h⟩
  · rcases Prod.mk.inj drawing with ⟨undrawn, rfl⟩
    exact ⟨rfl, asked, .inr undrawn⟩
  rcases Prod.mk.inj drawn with ⟨-, rfl⟩
  by_cases none : lines.isEmpty = true
  · simp only [if_pos none] at h
    cases h
  · simp only [if_neg none] at h
    rcases Job.run_bind_eq_error.mp h with writing | ⟨_, _, -, last⟩
    · rcases Job.run_onDisk_eq_error.mp writing with ⟨failed, rfl⟩
      exact ⟨rfl, asked, .inl (writeLayer_refusal failed refusal)⟩
    · cases last

theorem keeping_refusal {m : Matched} (h : (keeping s m).run.run e = (.error fault, f)) :
    ∃ directory, s.storeDirectory = some directory ∧
      Disk.hasNull (normalPath directory) = true := by
  unfold keeping at h
  cases kept : s.storeDirectory with
  | none =>
    rw [kept] at h
    cases h
  | some directory =>
    rw [kept] at h
    refine ⟨directory, rfl, ?_⟩
    rcases Job.run_bind_eq_error.mp h with saving | ⟨_, e₁, -, last⟩
    · exact saveArrays_refusal (Job.run_onDisk_eq_error.mp saving).1 refusal
    · cases last

end Jobs

/-- The table of offsets stands in the directory for it, which has been made. -/
def TableWritten (s : Settings) (rows : List OffsetRow) (before after : Disk) : Prop :=
  ∃ made, before.make (normalPath s.outputDirectory) = .ok made ∧
    writeTable (joinPath s.outputDirectory s.offsetsName) (offsetFile rows) made = .ok after

theorem tableWritten_of_ok {s : Settings} {rows : List OffsetRow} {e f : Effects}
    (h : (writeOffsetTable s rows).run.run e = (.ok (), f)) : TableWritten s rows e.disk f.disk := by
  rcases Job.run_bind_eq_ok.mp h with ⟨_, e₁, making, h⟩
  rcases Job.run_bind_eq_ok.mp h with ⟨_, e₂, writing, last⟩
  cases last
  exact ⟨e₁.disk, (Job.run_onDisk_eq_ok.mp making).1, (Job.run_onDisk_eq_ok.mp writing).1⟩

/-! ## Runs -/

/-- The refusals of a run that has written something. A name that it writes under has a null
character, or else a trip is stranded when the segments are drawn: then the table of offsets stands
on the disk, and nothing else. -/
inductive Late (s : Settings) (feed : Feed) (before left : Disk) : Prop
  | offsets (null : Disk.hasNull (joinPath s.outputDirectory s.offsetsName) = true)
  | segments (asked : s.exportSegments = true)
      (null : Disk.hasNull (joinPath s.outputDirectory s.segmentsName) = true)
  | store {directory : String} (asked : s.storeDirectory = some directory)
      (null : Disk.hasNull (normalPath directory) = true)
  | stranded {m : Matched} (reached : Reached s feed m) (asked : s.exportSegments = true)
      {t : Trip} (member : t ∈ m.trips) {shape : Polyline} {places : List Point}
      (stranded : Stranded (m.net s) m.ledger t shape places)
      (written : TableWritten s m.rows before left)

theorem drawn_of_reached {s : Settings} {feed : Feed} {m : Matched} (reached : Reached s feed m)
    (trip : Ident) : ∃ shape, m.ledger.polyline (m.net s).store trip = .ok shape := by
  rcases reached.ended with ⟨meter, ended⟩
  rcases matchTrips_eq_ok.mp ended with ⟨-, same⟩
  have fitted := Ledger.fitted_of_sound reached.sound #[] (m.trips.map .assign)
  rw [same] at fitted
  cases offsets : m.ledger.offsets? trip with
  | none => exact ⟨[], fitted.unmatched trip offsets⟩
  | some list =>
    rcases fitted.matched trip list offsets with ⟨_, shape, -, -, -, drawn⟩
    exact ⟨shape, drawn⟩

theorem align_refusal {s : Settings} {feed : Feed} {e f : Effects} {fault : Fault}
    (h : (align s feed).run.run e = (.error fault, f)) (refusal : fault.isRefusal = true) :
    f.disk = e.disk ∨ Late s feed e.disk f.disk := by
  rw [align_eq] at h
  -- until all trips are matched nothing is written
  have quiet := matching_quiet s feed e
  rcases Job.run_bind_eq_error.mp h with before | ⟨m, e₁, matched, h⟩
  · rw [before] at quiet
    exact .inl quiet.1
  rw [matched] at quiet
  have reached : Reached s feed m := quiet.2 m rfl
  have untouched : e₁.disk = e.disk := quiet.1
  rcases Job.run_bind_eq_error.mp h with writing | ⟨_, e₂, written, h⟩
  · rcases writing_refusal refusal writing with still | null
    · exact .inl (still.trans untouched)
    · exact .inr (.offsets null)
  -- from here on the table of offsets is on the disk
  have table : TableWritten s m.rows e.disk e₂.disk := untouched ▸ tableWritten_of_ok written
  rcases Job.run_bind_eq_error.mp h with exporting | ⟨_, e₃, -, h⟩
  · rcases exporting_refusal refusal exporting with ⟨same, asked, null | undrawn⟩
    · exact .inr (.segments asked null)
    rcases matchedSegments_error (drawn_of_reached reached) undrawn with
      rfl | ⟨-, t, member, shape, places, stranded⟩
    · cases refusal
    · exact .inr (.stranded reached asked member stranded (same ▸ table))
  rcases Job.run_bind_eq_error.mp h with keeping | ⟨_, e₄, -, last⟩
  · rcases keeping_refusal refusal keeping with ⟨directory, asked, null⟩
    exact .inr (.store asked null)
  · cases last

/-- A session that ends with status 1 has left the disk as it was, whatever it held, or is refused
late. -/
theorem session_refused (s : Settings) (feed : Feed) (disk : Disk)
    (h : (session s feed disk).status = some 1) :
    (session s feed disk).effects.disk = disk ∨
      Late s feed disk (session s feed disk).effects.disk := by
  unfold session at h ⊢
  cases threshold : s.threshold.rank with
  | error fault =>
    rw [threshold] at h
    cases h
  | ok least =>
    simp only [threshold, runShown] at h ⊢
    rcases run : (align s feed).run.run ⟨#[], disk⟩ with ⟨outcome, f⟩
    rw [run] at h
    cases outcome with
    | ok a => cases h
    | error fault =>
      by_cases refusal : fault.isRefusal = true
      · simp only [if_pos refusal]
        exact align_refusal run refusal
      · simp only [if_neg refusal] at h
        cases h

/-- A trip with distances, whose second stop has an infinite latitude. -/
def farStop : Feed :=
  feedOf [["s", "0", "0", "1", "0"], ["s", "0", "1", "2", "1"], ["s", "0", "2", "3", "2"]]
    [["t", "s"]] [["t", "a", "1", "0"], ["t", "b", "2", "1"], ["t", "c", "3", "2"]]
    [["a", "0", "0"], ["b", "inf", "1"], ["c", "0", "2"]]

theorem session_refused_farStop :
    (session plainSettings farStop).status = some 1 ∧
      Late plainSettings farStop plainSettings.disk
        (session plainSettings farStop).effects.disk := by
  have status : (session plainSettings farStop).status = some 1 := by decide +kernel
  have changed : (session plainSettings farStop).effects.disk ≠ plainSettings.disk := by
    decide +kernel
  rcases session_refused plainSettings farStop plainSettings.disk status with same | late
  · exact absurd same changed
  · exact ⟨status, late⟩

/-- The table of offsets has been written, in a directory that was not there. -/
theorem exists_late_refusal :
    (session plainSettings farStop).status = some 1 ∧
      plainSettings.disk.isDirectory "out" = false ∧
      (session plainSettings farStop).effects.disk.read? "out/trip_shape_offsets.csv" =
        some (Text.encode "trip_id,shape_id,offset_index,offsets\nt,s,0,0;1;2\n".toList) := by
  decide +kernel

end StopAlign
