import Kidobo.Cache.Generation
import Kidobo.Foundation.Expand

/-!
# What cleaning up keeps

Removing unselected generations removes nothing that a reader of the store
looks at: the manifest and the directories that it names stay as they are,
whatever fails on the way.

## Main definitions

* `Unselected`: the paths of generations that the manifest does not name
* `SameSelection`: two file systems that differ at most there

## Main results

* `ensures_cleanup`, `issues_cleanup`
* `SameSelection.generationCandidates`, `SameSelection.generationContentsMatch`
-/

namespace Kidobo

open Foundation FileProgram

/-! ### Reading what is selected -/

/-- Reading a file looks at its path only. -/
theorem readBytesWithLimit_congr {files other : FileSystem} {path : Path} (limit : ℕ)
    (same : other path = files path) :
    readBytesWithLimit other path limit = readBytesWithLimit files path limit := by
  rw [readBytesWithLimit, readBytesWithLimit, same]

theorem readMembers_congr {files other : FileSystem} {directory : Path}
    {limits : List GenerationFileLimit}
    (same : ∀ name, other (directory ++ [name]) = files (directory ++ [name])) :
    readMembers other directory limits = readMembers files directory limits := by
  induction limits with
  | nil => rfl
  | cons member rest ih =>
    rw [readMembers, readMembers, ih, readBytesWithLimit_congr member.readLimit (same member.name)]

section Codec

variable {codec : GenerationCodec} {files other : FileSystem} {root : Path}

theorem readManifest_congr (same : other (manifestPath root) = files (manifestPath root)) :
    readManifest codec other root = readManifest codec files root := by
  rw [readManifest, readManifest, readBytesWithLimit_congr manifestReadLimit same]

theorem generationCandidates_congr (same : other (manifestPath root) = files (manifestPath root)) :
    generationCandidates codec other root = generationCandidates codec files root := by
  rw [generationCandidates, generationCandidates, readManifest_congr same]

theorem generationContentsMatch_congr {candidate : GenerationCandidate}
    {limits : List GenerationFileLimit}
    (same : ∀ name, other (candidate.directory ++ [name]) = files (candidate.directory ++ [name])) :
    generationContentsMatch codec other candidate limits =
      generationContentsMatch codec files candidate limits := by
  rw [generationContentsMatch, generationContentsMatch, readMembers_congr same]

/-- A candidate stands in the directory of its id. -/
theorem directory_of_mem_candidates {candidate : GenerationCandidate}
    (member : candidate ∈ generationCandidates codec files root) :
    candidate.directory = generationDirectory root candidate.id := by
  unfold generationCandidates at member
  split at member
  · cases member
  · obtain ⟨id, _, rfl⟩ := List.mem_map.mp member
    rfl

end Codec

/-! ### What is not selected -/

/-- The path belongs to a generation that the manifest does not name. -/
def Unselected (codec : GenerationCodec) (files : FileSystem) (root path : Path) : Prop :=
  ∃ name, (∀ candidate ∈ generationCandidates codec files root, candidate.id ≠ name) ∧
    generationDirectory root name <+: path

/-- The file systems differ at most in generations that the manifest does not name. -/
def SameSelection (codec : GenerationCodec) (root : Path) (files after : FileSystem) : Prop :=
  ∀ path, ¬Unselected codec files root path → after path = files path

section Selection

variable {codec : GenerationCodec} {files after : FileSystem} {root : Path}

/-- The directory of a generation is longer than a path beside the store. -/
theorem not_unselected_of_length {path : Path} (short : path.length ≤ root.length + 1) :
    ¬Unselected codec files root path := by
  rintro ⟨name, _, below⟩
  have longer := below.length_le
  simp only [generationDirectory, generationsRoot, List.length_append, List.length_singleton]
    at longer
  omega

theorem not_unselected_member {candidate : GenerationCandidate} (name : String)
    (member : candidate ∈ generationCandidates codec files root) :
    ¬Unselected codec files root (candidate.directory ++ [name]) := by
  rintro ⟨other, unnamed, below⟩
  rw [directory_of_mem_candidates member] at below
  have same : other = candidate.id := by
    simpa [generationDirectory, generationsRoot, List.prefix_append_right_inj] using below
  exact unnamed candidate member same.symm

theorem SameSelection.manifest (same : SameSelection codec root files after) :
    after (manifestPath root) = files (manifestPath root) :=
  same _ (not_unselected_of_length (by simp [manifestPath]))

theorem SameSelection.generationCandidates (same : SameSelection codec root files after) :
    generationCandidates codec after root = generationCandidates codec files root :=
  generationCandidates_congr same.manifest

theorem SameSelection.generationContentsMatch (same : SameSelection codec root files after)
    {candidate : GenerationCandidate} {limits : List GenerationFileLimit}
    (member : candidate ∈ Kidobo.generationCandidates codec files root) :
    generationContentsMatch codec after candidate limits =
      Kidobo.generationContentsMatch codec files candidate limits :=
  generationContentsMatch_congr fun name => same _ (not_unselected_member name member)

/-- Removing a generation that is not named keeps the selection. -/
theorem SameSelection.remove {middle : FileSystem} {name : String}
    (same : SameSelection codec root files middle)
    (unnamed : ∀ candidate ∈ Kidobo.generationCandidates codec files root, candidate.id ≠ name)
    (removed : Mutation.Done middle after (.removeDirAll (generationDirectory root name)) ∨
      Mutation.Failed middle after (.removeDirAll (generationDirectory root name))) :
    SameSelection codec root files after := by
  intro path selected
  rw [Mutation.frame removed fun below => selected ⟨name, unnamed, below⟩]
  exact same path selected

end Selection

/-! ### Removing the rest -/

section Prune

variable {codec : GenerationCodec} {files middle : FileSystem} {root : Path}
  {keeps : String → Bool}

theorem ensures_pruneEntries
    (keepsNamed : ∀ candidate ∈ generationCandidates codec files root, keeps candidate.id = true)
    (names : List String) (same : SameSelection codec root files middle) :
    Ensures (SameSelection codec root files) (fun _ after => SameSelection codec root files after)
      (fun _ _ => False) (pruneEntries (generationsRoot root) keeps names) middle := by
  induction names generalizing middle with
  | nil => exact same
  | cons name rest ih =>
    rw [pruneEntries]
    by_cases isKept : keeps name = true
    · rw [if_pos isKept]
      exact ih same
    · rw [if_neg isKept]
      have unnamed : ∀ candidate ∈ generationCandidates codec files root, candidate.id ≠ name := by
        rintro candidate member rfl
        exact isKept (keepsNamed candidate member)
      refine ensures_look same fun view shown => ?_
      split
      · refine ensures_bestEffort fun after removed => ?_
        have kept := same.remove unnamed removed
        exact ⟨kept, ih kept⟩
      · exact ih same

theorem ensures_pruneDirectory
    (keepsNamed : ∀ candidate ∈ generationCandidates codec files root, keeps candidate.id = true)
    (same : SameSelection codec root files middle) :
    Ensures (SameSelection codec root files) (fun _ after => SameSelection codec root files after)
      (fun _ _ => False) (pruneDirectory (generationsRoot root) keeps) middle := by
  refine ensures_readDir same fun names _ => ?_
  cases names with
  | error error => exact same
  | ok listed =>
    refine ensures_bind (ensures_pruneEntries keepsNamed listed same) fun _ after kept => ?_
    refine ensures_bestEffort_last fun last synced => ?_
    obtain rfl : last = after := synced.elim id id
    exact ⟨kept, kept⟩

/-- A look that shows the manifest shows what the store selects. -/
theorem readManifest_of_shownBy {view : FileSystem} {manifest : GenerationManifest}
    (shown : files.ShownBy view) (read : readManifest codec view root = some manifest) :
    readManifest codec files root = some manifest := by
  rcases shown (manifestPath root) with same | unreadable
  · rw [← readManifest_congr same, read]
  · rw [readManifest, readBytesWithLimit, unreadable] at read
    cases read

/-- A manifest keeps what it names. -/
theorem keeps_of_readManifest {manifest : GenerationManifest}
    (read : readManifest codec files root = some manifest) :
    ∀ candidate ∈ generationCandidates codec files root, manifest.keeps candidate.id = true := by
  intro candidate member
  rw [generationCandidates, read] at member
  obtain ⟨id, named, rfl⟩ := List.mem_map.mp member
  rcases List.mem_cons.mp named with rfl | isPrevious
  · simp [GenerationManifest.keeps]
  · simp [GenerationManifest.keeps, Option.mem_toList.mp isPrevious]

/-- Whatever fails, cleaning up never changes what the store selects, and it
always comes to its end. -/
theorem ensures_cleanup (codec : GenerationCodec) (root : Path) (files : FileSystem) :
    Ensures (SameSelection codec root files) (fun _ after => SameSelection codec root files after)
      (fun _ _ => False) (cleanupUnselectedGenerations codec root) files := by
  have same : SameSelection codec root files files := fun _ _ => rfl
  refine ensures_look same fun view shown => ?_
  split
  · rename_i manifest read
    exact ensures_pruneDirectory (keeps_of_readManifest (readManifest_of_shownBy shown read)) same
  · refine ensures_look same fun later laterShown => ?_
    split_ifs with noManifest
    · -- without a manifest no generation is a candidate
      have absent : files (manifestPath root) = none := by
        rcases laterShown (manifestPath root) with shows | unreadable
        · rw [← shows, noManifest]
        · rw [unreadable] at noManifest
          cases noManifest
      refine ensures_pruneDirectory ?_ same
      intro candidate member
      rw [generationCandidates, readManifest, readBytesWithLimit, absent] at member
      cases member
    · exact same

theorem issues_look : FileProgram.look.Issues FileOp.Removes := ⟨trivial, fun _ => trivial⟩

theorem issues_bestEffort (mutation : Mutation) (removes : (FileOp.change mutation).Removes) :
    (bestEffort (change mutation)).Issues FileOp.Removes :=
  ⟨removes, fun outcome => by cases outcome <;> trivial⟩

theorem issues_pruneEntries (directory : Path) (keeps : String → Bool) (names : List String) :
    (pruneEntries directory keeps names).Issues FileOp.Removes := by
  induction names with
  | nil => trivial
  | cons name rest ih =>
    rw [pruneEntries]
    split
    · exact ih
    · refine issues_look.bind fun view => ?_
      dsimp only
      split
      · exact (issues_bestEffort (.removeDirAll _) trivial).bind fun _ => ih
      · exact ih

theorem issues_pruneDirectory (directory : Path) (keeps : String → Bool) :
    (pruneDirectory directory keeps).Issues FileOp.Removes := by
  refine ⟨trivial, fun names => ?_⟩
  cases names with
  | error error => trivial
  | ok listed =>
    exact (issues_pruneEntries directory keeps listed).bind fun _ =>
      issues_bestEffort (.syncDirectory _) trivial

/-- Cleaning up removes files, and does nothing else. -/
theorem issues_cleanup (codec : GenerationCodec) (root : Path) :
    (cleanupUnselectedGenerations codec root).Issues FileOp.Removes := by
  refine issues_look.bind fun view => ?_
  split
  · exact issues_pruneDirectory _ _
  · refine issues_look.bind fun later => ?_
    split
    · exact issues_pruneDirectory _ _
    · trivial

end Prune

end Kidobo
