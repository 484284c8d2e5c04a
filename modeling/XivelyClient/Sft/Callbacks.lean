import XivelyClient.Sft.Calls

/-! What a report of the application may do when the package has moved on. -/
namespace XivelyClient.Sft

section Fault

variable {platform : Platform} {answers : Answers} {context after : Context} {file : FileDesc} {block : Nat}
  {message : FileUpdateAvailable} {files : List FileDesc}

theorem Continued.fault (continued : Continued platform answers context block message files after)
    (present : context.fault ≠ some .absentFile) : after.fault ≠ some .absentFile := by
  cases continued with
  | unordered ordered => exact present
  | next ordered next read named => exact present
  | misread ordered next cause =>
    rcases cause with ⟨_,rfl⟩ | ⟨_,rfl⟩ <;> exact fun same => Fault.noConfusion (Option.some.inj same)
  | ended ordered last read told => exact present
  | dangling ordered last firmware gone => exact fun same => Fault.noConfusion (Option.some.inj same)

theorem fault_continue (read : context.currentFile = some file) (present : context.fault ≠ some .absentFile) :
    ((context.currentFileRevisionHandling answers).continuePackageDownload platform answers).fault ≠ some .absentFile := by
  have held := @currentFileRevisionHandling_holds context file answers read
  obtain ⟨current,same,found⟩ := currentFile_eq read
  obtain ⟨message,files,package,listed,_⟩ := package_of_file found
  refine (continuePackageDownload_cases (held.updateMessageFua.trans package) listed).fault ?_
  obtain ⟨status,effects,next,_,_,_,revised⟩ := @currentFileRevisionHandling_cases context file answers read
  rw [revised]
  exact present

end Fault

/-- The file under download, if there is one, lies in a package that has not been freed. -/
def Context.Current (context : Context) : Prop := context.updateCurrentFile ≠ none → ∃ file, context.currentFile = some file

/-- A report of success that is not about the file under download sends at most that it is about another file, and nothing else
changes. No report of success, and no report about the file under download, reads a file that is absent. -/
theorem fileDownloaded_isolated (platform : Platform) (context : Context) (answers : Answers) (filename : Option Name) :
    (¬Names context filename → context.Current →
      step platform context (answers,.fileDownloaded filename true) = context ∨
      ∃ file name revision, context.currentFile = some file ∧ file.name = some name ∧ file.revision = some revision ∧
        step platform context (answers,.fileDownloaded filename true) =
          context.emit [.fileStatus name revision .downloaded .urldlUnexpectedFileName]) ∧
    ∀ successfully, successfully = true ∨ Names context filename → context.fault ≠ some .absentFile →
      (step platform context (answers,.fileDownloaded filename successfully)).fault ≠ some .absentFile := by
  constructor
  · intro other there
    rcases @step_stepped platform context (answers,.fileDownloaded filename true) with same | ⟨_,_,stepped⟩
    · exact .inl same
    · generalize step platform context (answers,.fileDownloaded filename true) = after at stepped ⊢
      cases stepped with
      | fileDownloaded reported =>
        cases reported with
        | absent none success => exact .inl rfl
        | missing none failure => cases failure
        | dangling same gone =>
          obtain ⟨file,read⟩ := there (same ▸ Option.some_ne_none _)
          rw [Context.currentFile,same,Option.bind_some,gone] at read
          cases read
        | @unexpected file read success differs =>
          unfold Context.reports Context.createFileStatus
          split
          · split
            · rename_i name revision named revised
              exact .inr ⟨file,name,revision,read,named,revised,rfl⟩
            · exact .inl emit_nil
          · exact .inl emit_nil
        | @done file name read success named same => exact (other ⟨file,name,read,named,same⟩).elim
        | failed read failure => cases failure
  · intro successfully about present
    rcases @step_stepped platform context (answers,.fileDownloaded filename successfully) with same | ⟨_,_,stepped⟩
    · rwa [same]
    · generalize step platform context (answers,.fileDownloaded filename successfully) = after at stepped ⊢
      cases stepped with
      | fileDownloaded reported =>
        cases reported with
        | absent none success => exact present
        | missing none failure =>
          rcases about with success | ⟨file,name,read,_⟩
          · exact (Bool.false_ne_true (failure.symm.trans success)).elim
          · unfold Context.currentFile at read
            rw [none] at read
            exact (Option.some_ne_none file read.symm).elim
        | dangling same gone => exact fun same => Fault.noConfusion (Option.some.inj same)
        | unexpected read success differs => exact present
        | @done file name read success named same => exact @fault_continue platform answers _ file read present
        | failed read failure => exact present

section Examples

def linkedFile : FileDesc := {fileNamed [97] with downloadLink := some [104]}

/-- One file that the application downloads. -/
def downloading : Context :=
  step plainPlatform (makeContext true true) ({},.fileUpdateAvailable (.ofFiles [linkedFile]))

/-- The application reports another file than the one under download, and a status is sent. -/
theorem fileDownloaded_other : ¬Names downloading (some [98]) ∧
    (step plainPlatform downloading ({},.fileDownloaded (some [98]) true)).effects =
      downloading.effects ++ [.fileStatus [97] [49] .downloaded .urldlUnexpectedFileName] := by
  constructor
  · rintro ⟨file,name,read,named,same⟩
    have first : downloading.currentFile = some linkedFile := by decide
    cases first.symm.trans read
    exact absurd (named.trans same.symm) (by decide)
  · decide

end Examples

end XivelyClient.Sft
