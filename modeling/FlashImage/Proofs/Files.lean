import FlashImage.Files

/-!
# Files that were written are there

Writing files in a row leaves each of them behind, as long as no name is written twice
(`Files.get?_writeAll`), and nothing else (`Files.writeAll_eq`).
-/

namespace FlashImage.Files

/-- Writing other files leaves a file alone. -/
theorem get?_foldl_of_notMem {name : String} (written : List (String × Bytes)) (files : Files)
    (h : name ∉ written.map Prod.fst) :
    (written.foldl (fun files (name, contents) => insert name contents files) files).get? name
      = files.get? name := by
  induction written generalizing files with
  | nil => rfl
  | cons f written ih =>
    rw [List.map_cons, List.mem_cons, not_or] at h
    rw [List.foldl_cons, ih _ h.2]
    exact get?_insert_of_ne f.2 files h.1

/-- **Each of the files written is there**, if no two have the same name. -/
theorem get?_writeAll {written : List (String × Bytes)} (h : (written.map Prod.fst).Nodup)
    {name : String} {contents : Bytes} (hmem : (name, contents) ∈ written) :
    (writeAll written).get? name = some contents := by
  rw [writeAll]
  generalize ([] : Files) = files
  induction written generalizing files with
  | nil => cases hmem
  | cons f written ih =>
    obtain ⟨hnot, hnodup⟩ := List.nodup_cons.1 h
    rcases List.mem_cons.1 hmem with rfl | hmem
    · -- Nothing that is written later has this name.
      rw [List.foldl_cons, get?_foldl_of_notMem written _ hnot]
      exact get?_insert_self name contents files
    · exact ih hnodup hmem (insert f.1 f.2 files)

/-- A file with a name of its own is put behind the others. -/
theorem insert_of_notMem {name : String} (contents : Bytes) {files : Files}
    (h : name ∉ files.map Prod.fst) : insert name contents files = files ++ [(name, contents)] := by
  induction files with
  | nil => rfl
  | cons f files ih =>
    rw [List.map_cons, List.mem_cons, not_or] at h
    rw [insert, if_neg (Ne.symm h.1), ih h.2, List.cons_append]

/-- **Nothing is written over**, if no two files have the same name: what is there is what was written. -/
theorem writeAll_eq {written : List (String × Bytes)} (h : (written.map Prod.fst).Nodup) :
    writeAll written = written := by
  -- Of the files that are there already, none has the name of one still to come.
  have hrest (files : Files) (hnodup : ((files ++ written).map Prod.fst).Nodup) :
      written.foldl (fun files (name, contents) => insert name contents files) files
        = files ++ written := by
    clear h
    induction written generalizing files with
    | nil => exact (List.append_nil files).symm
    | cons f written ih =>
      obtain ⟨name, contents⟩ := f
      have hnext : files ++ (name, contents) :: written = (files ++ [(name, contents)]) ++ written := by
        rw [List.append_assoc, List.singleton_append]
      have hfresh : name ∉ files.map Prod.fst := by
        rw [List.map_append, List.nodup_append] at hnodup
        exact fun hmem => hnodup.2.2 name hmem name List.mem_cons_self rfl
      have hlater := ih (files ++ [(name, contents)]) (hnext ▸ hnodup)
      rw [← insert_of_notMem contents hfresh] at hlater
      rw [List.foldl_cons, hnext, ← insert_of_notMem contents hfresh]
      exact hlater
  exact hrest [] h

end FlashImage.Files
