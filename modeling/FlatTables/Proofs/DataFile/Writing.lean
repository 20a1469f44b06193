import FlatTables.DataFile
import FlatTables.Proofs.File.Writing

set_option autoImplicit false

/-! # How data files are written

Rows can be written in whole or in part. `Remains` lists what the file can hold when the writing is
over, with the result that goes with it, and every run of `writeRows` on a file that can be opened
ends in one of these ways (`writeEnds`). A file that cannot be opened is left as it was. -/

namespace FlatTables.DataFile

variable {path : Path} {rows : List Row} {w w' : World}

/-- What a file can hold after rows were written to it, and what comes of the writing, when the bytes
may have met some of the given faults. -/
inductive Remains (path : Path) (rows : List Row) (faults : List (Option Fault)) :
    List UInt8 → Except StorageError Unit → Prop
  /-- The system stopped taking bytes while rows were written. -/
  | stopped {fault : Fault} (hfault : some fault ∈ faults) :
      Remains path rows faults (fault.keptByBuffer (render rows).1)
        (.error (.dataFile path (.file fault.cause)))
  /-- A row has another number of cells than the first. The rows before it are written, as far as the
  system takes them. -/
  | unequal {cause : Delimited.UnequalLengths} {fault? : Option Fault}
      (hfault : ∀ fault, fault? = some fault → some fault ∈ faults)
      (hcut : (render rows).2 = some cause) :
      Remains path rows faults (Fault.kept fault? (render rows).1)
        (.error (.dataFile path (.unequalLengths cause)))
  /-- All rows went into the buffer, but not all of the buffer was taken. -/
  | notFlushed {fault : Fault} (hfault : some fault ∈ faults) (hwhole : (render rows).2 = none) :
      Remains path rows faults (fault.keptByBuffer (render rows).1)
        (.error (.cannotWrite path fault.cause))
  | whole (hwhole : (render rows).2 = none) : Remains path rows faults (render rows).1 (.ok ())

/-- Where the system takes all bytes of an open file, nothing is missing of what was to be written. -/
theorem Remains.eq_render {content : List UInt8} {result : Except StorageError Unit}
    (h : Remains path rows [] content result) : content = (render rows).1 := by
  cases h with
  | stopped hfault => cases hfault
  | @unequal _ fault? hfault hcut =>
      cases fault? with
      | none => rfl
      | some fault => cases hfault fault rfl
  | notFlushed hfault hwhole => cases hfault
  | whole hwhole => rfl

/-- How writing the rows of a data file can end. -/
inductive WriteEnds (path : Path) (rows : List Row) (w : World) :
    Except StorageError Unit → World → Prop
  | notOpened {cause : FileError} (events : List Event)
      (hwrite : ∀ content, w.files.write path content = .error cause) :
      WriteEnds path rows w (.error (.dataFile path (.file cause))) { w with events := events }
  | opened {content : List UInt8} {result : Except StorageError Unit} {files : FileTree}
      (events : List Event) {faults : List (Option Fault)} (hfaults : faults ⊆ w.faults)
      (hremains : Remains path rows w.faults content result)
      (hwrite : w.files.write path content = .ok files) :
      WriteEnds path rows w result { w with files := files, events := events, faults := faults }

/-- **How writing rows ends.** -/
theorem writeEnds {result : Except StorageError Unit}
    (h : (writeRows path rows).run w = (result, w')) : WriteEnds path rows w result w' := by
  unfold writeRows at h
  rcases Action.openFile_cases StorageError.message (fun e => .dataFile path (.file e)) path w with
    ⟨cause, hwrite, hopen⟩ | ⟨opened, hopen, hopened⟩
  · simp only [Action.run_bind_of_error hopen] at h
    cases h
    exact .notOpened _ hwrite
  simp only [Action.run_bind_of_ok hopen] at h
  rw [Action.run_bind_of_ok (Action.run_handOver _ _)] at h
  -- the worlds after the bytes were handed over once, and twice
  let w₁ : World := { w with files := opened, faults := w.laterFaults (render rows).1 }
  let w₂ : World := { w₁ with faults := w₁.laterFaults (render rows).1 }
  have hfaults₁ : w₁.faults ⊆ w.faults := w.laterFaults_subset (render rows).1
  have hfaults₂ : w₂.faults ⊆ w.faults :=
    List.Subset.trans (w₁.laterFaults_subset (render rows).1) hfaults₁
  have hsecond : ∀ fault, w₁.fault? (render rows).1 = some fault → some fault ∈ w.faults :=
    fun fault h => hfaults₁ (World.mem_faults_of_fault? h)
  have hfault : ({ w with files := opened } : World).fault? = w.fault? := rfl
  change Action.run _ w₁ = _ at h
  cases hfirst : w.fault? (render rows).1 with
  | some fault =>
      obtain ⟨files, hwrite, hfill⟩ := hopened (fault.keptByBuffer (render rows).1)
      simp only [hfault, hfirst] at h
      rw [Action.run_bind_of_ok (Action.run_fill (w := w₁) hfill)] at h
      cases h
      exact .opened _ hfaults₁ (.stopped (World.mem_faults_of_fault? hfirst)) hwrite
  | none =>
      cases hproblem : (render rows).2 with
      | some cause =>
          obtain ⟨files, hwrite, hfill⟩ :=
            hopened (Fault.kept (w₁.fault? (render rows).1) (render rows).1)
          simp only [hfault, hfirst, hproblem] at h
          rw [Action.run_bind_of_ok (Action.run_handOver w₁ _),
            Action.run_bind_of_ok (Action.run_fill (w := w₂) hfill)] at h
          cases h
          exact .opened _ hfaults₂ (.unequal hsecond hproblem) hwrite
      | none =>
          simp only [hfault, hfirst, hproblem] at h
          rw [Action.run_bind_of_ok (Action.run_handOver w₁ _)] at h
          cases hlast : w₁.fault? (render rows).1 with
          | some fault =>
              obtain ⟨files, hwrite, hfill⟩ := hopened (fault.keptByBuffer (render rows).1)
              simp only [hlast] at h
              rw [Action.run_bind_of_ok (Action.run_fill (w := w₂) hfill)] at h
              cases h
              exact .opened _ hfaults₂ (.notFlushed (hsecond fault hlast) hproblem) hwrite
          | none =>
              obtain ⟨files, hwrite, hfill⟩ := hopened (render rows).1
              simp only [hlast] at h
              rw [Action.run_bind_of_ok (Action.run_fill (w := w₂) hfill)] at h
              cases h
              exact .opened _ hfaults₂ (.whole hproblem) hwrite

/-- A file that all rows were written to holds them. -/
theorem read_of_run_writeRows (h : (writeRows path rows).run w = (.ok (), w')) :
    w'.files.read path = .ok (render rows).1 := by
  cases writeEnds h with
  | opened events hfaults hremains hwrite =>
      cases hremains with
      | whole hwhole => exact FileTree.read_of_write hwrite

end FlatTables.DataFile
