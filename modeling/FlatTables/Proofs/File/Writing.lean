import FlatTables.Proofs.File.Tree

set_option autoImplicit false

/-! # How files are written

A file is opened, which empties it, and filled with what the system takes. What comes of this is said
by `FileTree.write` alone: if the file can be opened, it ends with the bytes that were taken
(`openFile_cases`, `run_fill`). A file that is replaced as a whole therefore holds its new content, or
the part of it before a fault (`run_writeFile`). -/

namespace FlatTables

theorem World.mem_faults_of_fault? {w : World} {content : List UInt8} {fault : Fault}
    (h : w.fault? content = some fault) : some fault ∈ w.faults := by
  unfold fault? at h
  split at h
  · cases h
  · rw [Option.join_eq_some_iff] at h
    exact List.mem_of_head? h

theorem World.laterFaults_subset (w : World) (content : List UInt8) :
    w.laterFaults content ⊆ w.faults := by
  unfold laterFaults
  split
  · exact List.Subset.refl _
  · exact (List.tail_sublist _).subset

namespace Action

variable {ε : Type} (message : ε → String) (wrap : FileError → ε) (path : Path) (w : World)

/-- Either a file cannot be opened, whatever is to be written to it, and is left as it was. Or it is
opened, and whatever it is filled with then, it might have been written at once. -/
theorem openFile_cases :
    (∃ e, (∀ content, w.files.write path content = .error e) ∧
      (openFile message wrap path).run w =
        (.error (wrap e), w.report ⟨.error, message (wrap e)⟩)) ∨
    ∃ opened, (openFile message wrap path).run w = (.ok (), { w with files := opened }) ∧
      ∀ content, ∃ files, w.files.write path content = .ok files ∧
        opened.write path content = .ok files := by
  simp only [Action.run, openFile, changeFiles]
  cases hwrite : w.files.write path [] with
  | error e => exact .inl ⟨e, FileTree.write_error hwrite, rfl⟩
  | ok opened => exact .inr ⟨opened, rfl, FileTree.write_of_write hwrite⟩

theorem run_handOver (content : List UInt8) :
    (handOver content : Action ε (Option Fault)).run w =
      (.ok (w.fault? content), { w with faults := w.laterFaults content }) := rfl

variable {path w} in
theorem run_fill {content : List UInt8} {files : FileTree}
    (h : w.files.write path content = .ok files) :
    (fill path content : Action ε Unit).run w = (.ok (), { w with files := files }) := by
  change (Except.ok (), { w with files := (w.files.write path content).toOption.getD w.files }) = _
  rw [h]
  rfl

/-- **How the content of a file is replaced.** The file ends with the new content up to the first
fault. -/
theorem run_writeFile (content : List UInt8) :
    (writeFile message wrap path content).run w =
      match w.files.write path (Fault.kept (w.fault? content) content) with
      | .error e => (.error (wrap e), w.report ⟨.error, message (wrap e)⟩)
      | .ok files =>
        let w' := { w with files := files, faults := w.laterFaults content }
        match w.fault? content with
        | none => (.ok (), w')
        | some fault =>
          (.error (wrap fault.cause), w'.report ⟨.error, message (wrap fault.cause)⟩) := by
  unfold writeFile
  rcases openFile_cases message wrap path w with ⟨e, hrefused, hrun⟩ | ⟨opened, hrun, hopened⟩
  · rw [run_bind_of_error hrun, hrefused]
  · obtain ⟨files, hwrite, hfill⟩ := hopened (Fault.kept (w.fault? content) content)
    rw [run_bind_of_ok hrun, run_bind_of_ok (run_handOver _ content)]
    change (fill path (Fault.kept (w.fault? content) content) >>= _).run _ = _
    rw [run_bind_of_ok (run_fill hfill), hwrite]
    change (match w.fault? content with
      | none => (return () : Action ε Unit)
      | some fault => fail message (wrap fault.cause)).run _ = _
    cases w.fault? content <;> rfl

end Action

end FlatTables
