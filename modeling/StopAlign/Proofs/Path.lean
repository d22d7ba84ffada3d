import StopAlign.Path

/-!
# Path — the steps of paths that are put together

- `pathSteps_append`      : the steps of two paths with a slash between them
- `pathSteps_pathOf`      : the steps of a path that is made of steps
- `pathSteps_parentPath`, `pathSteps_joinPath` : the steps of the directory above, and of a name
  below a directory
- `fromRoot_pathOf`       : whether such paths begin at the root

A step of a path has no slash, so cutting it again gives it back.
-/

namespace StopAlign

/-! ## Cutting at slashes -/

theorem cutSteps_append (step front back : List Char) :
    cutSteps step (front ++ '/' :: back) = cutSteps step front ++ cutSteps [] back := by
  induction front generalizing step with
  | nil => simp [cutSteps]
  | cons c front ih =>
    by_cases slash : c = '/'
    · simp [cutSteps, slash, ih]
    · simp [cutSteps, slash, ih]

theorem cutSteps_of_notMem {step cs : List Char} (h : '/' ∉ cs) :
    cutSteps step cs = [String.ofList (step.reverse ++ cs)] := by
  induction cs generalizing step with
  | nil => simp [cutSteps]
  | cons c cs ih =>
    rcases not_or.mp (mt List.mem_cons.mpr h) with ⟨other, rest⟩
    rw [cutSteps, if_neg (Ne.symm other), ih rest]
    simp

theorem slash_notMem_cutSteps {step cs : List Char} (h : '/' ∉ step) :
    ∀ piece ∈ cutSteps step cs, '/' ∉ piece.toList := by
  induction cs generalizing step with
  | nil =>
    intro piece member
    cases List.mem_singleton.mp member
    simpa using h
  | cons c cs ih =>
    intro piece member
    rw [cutSteps] at member
    by_cases slash : c = '/'
    · rw [if_pos slash] at member
      rcases List.mem_cons.mp member with rfl | later
      · simpa using h
      · exact ih List.not_mem_nil piece later
    · rw [if_neg slash] at member
      refine ih ?_ piece member
      intro back
      rcases List.mem_cons.mp back with same | old
      · exact slash same.symm
      · exact h old

/-! ## Steps -/

theorem pathSteps_append (front back : String) :
    pathSteps (front ++ "/" ++ back) = pathSteps front ++ pathSteps back := by
  have parts : (front ++ "/" ++ back).toList = front.toList ++ '/' :: back.toList := by
    simp
  rw [pathSteps, parts, cutSteps_append, List.filter_append]
  rfl

theorem pathSteps_intercalate (steps : List String) :
    pathSteps ("/".intercalate steps) = steps.flatMap pathSteps := by
  induction steps with
  | nil => rfl
  | cons step rest ih =>
    cases rest with
    | nil => simp
    | cons next rest =>
      rw [String.intercalate_cons_cons, pathSteps_append, ih]
      rfl

/-- A step of a path is a path of one step. -/
theorem pathSteps_of_mem {path step : String} (h : step ∈ pathSteps path) :
    pathSteps step = [step] ∧ '/' ∉ step.toList ∧ step ≠ "" := by
  rcases List.mem_filter.mp h with ⟨piece, kept⟩
  have plain := slash_notMem_cutSteps List.not_mem_nil step piece
  have named : step ≠ "" ∧ step ≠ "." := by simpa using kept
  refine ⟨?_, plain, named.1⟩
  rw [pathSteps, cutSteps_of_notMem plain]
  simpa using named

theorem flatMap_pathSteps {path : String} {steps : List String} (h : steps ⊆ pathSteps path) :
    steps.flatMap pathSteps = steps := by
  induction steps with
  | nil => rfl
  | cons step rest ih =>
    have first := (pathSteps_of_mem (h List.mem_cons_self)).1
    rw [List.flatMap_cons, first, ih fun _ member => h (List.mem_cons_of_mem step member)]
    rfl

/-! ## Paths from steps -/

/-- The root that a path begins at, if it does. -/
inductive IsMark : String → Prop
  | none : IsMark ""
  | one : IsMark "/"
  | two : IsMark "//"

theorem isMark_rootMark (path : String) : IsMark (rootMark path) := by
  unfold rootMark
  split
  · exact .one
  · exact .two
  · exact .one
  · exact .none

theorem fromRoot_rootMark (path : String) : fromRoot (rootMark path) = fromRoot path := by
  unfold rootMark
  split
  · rename_i parts
    rw [fromRoot, fromRoot, parts]
    rfl
  · rename_i parts
    rw [fromRoot, fromRoot, parts]
    rfl
  · rename_i parts
    rw [fromRoot, fromRoot, parts]
    rfl
  · rename_i others
    cases parts : path.toList with
    | nil => simp [fromRoot, parts]
    | cons c cs =>
      have other : c ≠ '/' := fun same => others cs (same ▸ parts)
      simp [fromRoot, parts, other]

section Made

variable {root path : String} {steps : List String} (mark : IsMark root)
  (own : steps ⊆ pathSteps path)

include mark own

theorem pathSteps_pathOf : pathSteps (pathOf root steps) = steps := by
  have behind : pathSteps (root ++ "/".intercalate steps) = steps := by
    calc pathSteps (root ++ "/".intercalate steps)
        = pathSteps ("/".intercalate steps) := by
          cases mark with
          | none => rw [String.empty_append]
          | one => exact pathSteps_append "" ("/".intercalate steps)
          | two => exact pathSteps_append "/" ("/".intercalate steps)
      _ = steps := (pathSteps_intercalate steps).trans (flatMap_pathSteps own)
  simp only [pathOf]
  split
  · rename_i nothing
    rw [nothing] at behind
    exact behind
  · exact behind

theorem fromRoot_pathOf : fromRoot (pathOf root steps) = fromRoot root := by
  cases mark with
  | one => simp [pathOf, fromRoot]
  | two => simp [pathOf, fromRoot]
  | none =>
    cases steps with
    | nil => rfl
    | cons step rest =>
      -- the path begins with the first character of its first step
      rcases pathSteps_of_mem (own List.mem_cons_self) with ⟨-, plain, filled⟩
      have front : ∃ behind, ("/".intercalate (step :: rest)).toList = step.toList ++ behind := by
        cases rest with
        | nil => exact ⟨[], by simp⟩
        | cons next rest =>
          rw [String.intercalate_cons_cons, String.append_assoc, String.toList_append]
          exact ⟨_, rfl⟩
      rcases front with ⟨behind, whole⟩
      cases first : step.toList with
      | nil => exact absurd (String.toList_eq_nil_iff.mp first) filled
      | cons c cs =>
        rw [first] at whole plain
        have other : c ≠ '/' := fun same => plain (same ▸ List.mem_cons_self)
        have here : fromRoot ("/".intercalate (step :: rest)) = false := by
          simp [fromRoot, whole, other]
        simp only [pathOf, String.empty_append]
        split
        · rfl
        · exact here

end Made

theorem pathSteps_normalPath (path : String) : pathSteps (normalPath path) = pathSteps path :=
  pathSteps_pathOf (isMark_rootMark path) fun _ member => member

theorem fromRoot_normalPath (path : String) : fromRoot (normalPath path) = fromRoot path :=
  (fromRoot_pathOf (isMark_rootMark path) fun _ member => member).trans (fromRoot_rootMark path)

theorem pathSteps_parentPath (path : String) :
    pathSteps (parentPath path) = (pathSteps path).dropLast :=
  pathSteps_pathOf (isMark_rootMark path) (List.dropLast_subset _)

/-- The steps of a name below a directory. -/
theorem pathSteps_joinPath (directory : String) {name : String} (below : fromRoot name = false) :
    pathSteps (joinPath directory name) = pathSteps directory ++ pathSteps name := by
  unfold joinPath
  by_cases start : directory = ""
  · rw [if_pos (.inr start), pathSteps_normalPath, start]
    rfl
  · have outside : ¬(fromRoot name = true ∨ directory = "") := by
      simp [below, start]
    rw [if_neg outside, pathSteps_normalPath, pathSteps_append]

theorem fromRoot_joinPath (directory : String) {name : String} (below : fromRoot name = false) :
    fromRoot (joinPath directory name) = fromRoot directory := by
  unfold joinPath
  by_cases start : directory = ""
  · rw [if_pos (.inr start), fromRoot_normalPath, start, below]
    rfl
  · have outside : ¬(fromRoot name = true ∨ directory = "") := by
      simp [below, start]
    rw [if_neg outside, fromRoot_normalPath]
    cases first : directory.toList with
    | nil => exact absurd (String.toList_eq_nil_iff.mp first) start
    | cons c cs => simp [fromRoot, first]

theorem fromRoot_parentPath (path : String) : fromRoot (parentPath path) = fromRoot path :=
  (fromRoot_pathOf (isMark_rootMark path) (List.dropLast_subset _)).trans (fromRoot_rootMark path)

end StopAlign
