import Kidobo.Cache.Promotion

/-!
# Filling an empty store

In a store where nothing stands yet, staging and promotion can succeed: none of
their checks stands in the way. This tells apart what must fail from what may
fail.

## Main definitions

* `EmptyStore`, `NothingBeside`: nothing stands in the store, or beside its generations

## Main results

* `canReturn_stageGeneration`, `canReturn_promote`
-/

namespace Kidobo

open Foundation FileProgram

/-- Nothing stands in the store. -/
def EmptyStore (root : Path) (files : FileSystem) : Prop := ∀ path, root <+: path → files path = none

/-- The generation needs no repair, and nothing stands beside the generations of
its store. -/
def NothingBeside (staged : StagedGeneration) (files : FileSystem) : Prop :=
  staged.repair = none ∧
    ∀ name, name ≠ "generations" → files (staged.storeRoot ++ [name]) = none

section Rules

variable {α : Type} {returns : α → FileSystem → Prop} {files after : FileSystem}

/-- A look can show the files as they are. -/
theorem canReturn_look {next : FileSystem → FileProgram α}
    (continues : CanReturn FileStep returns (next files) files) :
    CanReturn FileStep returns (look >>= next) files :=
  ⟨files, files, ⟨rfl, fun _ => Or.inl rfl⟩, continues⟩

/-- A mutation can succeed when its effect is possible. -/
theorem canReturn_change {mutation : Mutation} {next : Unit → FileProgram α}
    (done : mutation.Done files after) (continues : CanReturn FileStep returns (next ()) after) :
    CanReturn FileStep returns (change mutation >>= next) files :=
  ⟨.ok (), after, done, continues⟩

theorem canReturn_uniqueNumbers {next : ℕ × ℕ → FileProgram α} (numbers : ℕ × ℕ)
    (continues : CanReturn FileStep returns (next numbers) files) :
    CanReturn FileStep returns (perform .uniqueNumbers >>= next) files :=
  ⟨numbers, files, rfl, continues⟩

end Rules

section Staging

variable {codec : GenerationCodec} {root staging : Path} {members : List GenerationFile}
  {files : FileSystem}

/-- New files can be written. -/
theorem canReturn_writeMembers (distinct : (members.map GenerationFile.name).Nodup)
    (unused : ∀ file ∈ members, files (staging ++ [file.name]) = none) :
    CanReturn FileStep (fun _ after => ∀ path, (∀ file ∈ members, path ≠ staging ++ [file.name]) →
      after path = files path) (writeMembers staging members) files := by
  induction members generalizing files with
  | nil => exact fun _ _ => rfl
  | cons file rest ih =>
    rw [List.map_cons, List.nodup_cons] at distinct
    obtain ⟨isUnused, others⟩ := List.forall_mem_cons.mp unused
    refine canReturn_change ⟨isUnused, rfl⟩ (canReturn_change rfl (canReturn_change rfl ?_))
    have elsewhere {path : Path} (apart : path ≠ staging ++ [file.name]) :
        Function.update (Function.update files (staging ++ [file.name]) (some (.file [])))
          (staging ++ [file.name]) (some (.file file.contents)) path = files path := by
      rw [Function.update_of_ne apart, Function.update_of_ne apart]
    refine (ih distinct.2 fun other inRest => ?_).mono fun _ last kept path apart => ?_
    · rw [elsewhere, others other inRest]
      intro same
      have sameName : other.name = file.name := by simpa using same
      exact distinct.1 (sameName ▸ List.mem_map_of_mem inRest)
    · obtain ⟨first, later⟩ := List.forall_mem_cons.mp apart
      rw [kept path later, elsewhere first]

/-- The directories on the way to the generations, where nothing else stands. -/
def withGenerations (root : Path) (files : FileSystem) : FileSystem := fun path =>
  if path <+: generationsRoot root ∧ files path = none then some .directory else files path

theorem withGenerations_done (empty : EmptyStore root files) :
    (Mutation.createDirAll (generationsRoot root)).Done files (withGenerations root files) := by
  refine ⟨if_pos ⟨List.prefix_rfl, empty _ (List.prefix_append _ _)⟩, fun other => ?_⟩
  unfold withGenerations
  split_ifs with added
  · exact Or.inr ⟨added.1, added.2, rfl⟩
  · exact Or.inl rfl

theorem withGenerations_eq_none (empty : EmptyStore root files) {rest : Path}
    (beside : ¬root ++ rest <+: generationsRoot root) :
    withGenerations root files (root ++ rest) = none := by
  rw [withGenerations, if_neg fun added => beside added.1]
  exact empty _ (List.prefix_append _ _)

theorem canReturn_publishStaged {id : String} {limits : List GenerationFileLimit}
    (isThere : files staging ≠ none) (absent : files (generationDirectory root id) = none) :
    CanReturn FileStep (fun outcome after => outcome = (true, none) ∧
        after = files.moved staging (generationDirectory root id))
      (publishStaged codec root id limits staging) files := by
  refine canReturn_look ?_
  have missing : tryExists files (generationDirectory root id) = .ok false := by
    rw [tryExists, absent]
    rfl
  rw [missing]
  have renamed : (Mutation.rename staging (generationDirectory root id)).Done files
      (files.moved staging (generationDirectory root id)) := ⟨isThere, rfl⟩
  exact canReturn_change renamed
    (@canReturn_change _ _ _ _ (.syncDirectory (generationsRoot root)) _ rfl ⟨rfl, rfl⟩)

/-- The files of a new staging directory can be published. -/
theorem canReturn_stageInto {previous : Option String}
    (named : NamedFiles members) (isStaging : IsStaging root staging)
    (isThere : files staging ≠ none)
    (unused : ∀ name, files (staging ++ [name]) = none)
    (unpublished : files (generationDirectory root (generationId codec members)) = none)
    (beside : ∀ name, name ≠ "generations" → files (root ++ [name]) = none) :
    CanReturn FileStep NothingBeside
      (stageInto codec root members previous staging) files := by
  obtain ⟨hiddenName, hidden, rfl⟩ := isStaging
  unfold stageInto
  refine (canReturn_writeMembers named.distinct fun file _ => unused file.name).bind
    fun _ filled kept => ?_
  have keptShort {path : Path} (short : path.length ≤ root.length + 2) : filled path = files path := by
    refine kept path fun file _ same => ?_
    have sameLength := congrArg List.length same
    simp [generationsRoot] at sameLength
    omega
  have filledThere : filled (generationsRoot root ++ [hiddenName]) ≠ none := by
    rw [keptShort (by simp [generationsRoot])]
    exact isThere
  have absent : filled (generationDirectory root (generationId codec members)) = none := by
    rw [keptShort (by simp [generationDirectory, generationsRoot]), unpublished]
  refine @canReturn_change _ _ _ filled (.syncDirectory _) _ rfl ?_
  refine (canReturn_publishStaged filledThere absent).bind ?_
  rintro _ _ ⟨rfl, rfl⟩
  refine canReturn_look ⟨rfl, fun name apart => ?_⟩
  have above {below : Path} (long : root.length + 2 ≤ below.length) : ¬below <+: root ++ [name] := by
    intro isPrefix
    have shorter := isPrefix.length_le
    simp at shorter
    omega
  rw [FileSystem.moved, if_neg (above (by simp [generationDirectory, generationsRoot])),
    if_neg (above (by simp [generationsRoot])), keptShort (by simp), beside name apart]

/-- The staging directory of the first numbers. -/
def firstStaging (root : Path) : Path := generationsRoot root ++ [s!".staging-{1}-{1}"]

theorem isStaging_firstStaging (root : Path) : IsStaging root (firstStaging root) :=
  ⟨_, isHidden_stagingName 1 1, rfl⟩

theorem canReturn_createStagingDirectory {attempts : ℕ} (unused : files (firstStaging root) = none) :
    CanReturn FileStep (fun staging after => staging = firstStaging root ∧
        after = Function.update files (firstStaging root) (some .directory))
      (createStagingDirectory (generationsRoot root) (attempts + 1)) files :=
  canReturn_uniqueNumbers (1, 1) ⟨.ok (), _, ⟨unused, rfl⟩, rfl, rfl⟩

/-- In an empty store, files of distinct safe names can be staged, and nothing
beside the generations appears. -/
theorem canReturn_stageGeneration {previous : Option String} (empty : EmptyStore root files)
    (nonempty : members.isEmpty = false)
    (accepted : (repeatsName (sortedByName GenerationFile.name members) ||
      (sortedByName GenerationFile.name members).any fun file => !isSafeFileName file.name) = false)
    (isId : isGenerationId
      (generationId codec (sortedByName GenerationFile.name members)) = true) :
    CanReturn FileStep NothingBeside
      (stageGeneration codec root members previous) files := by
  have named := namedFiles_of_accepted accepted
  have elsewhere {rest : Path} (apart : root ++ rest ≠ firstStaging root)
      (beside : ¬root ++ rest <+: generationsRoot root) :
      Function.update (withGenerations root files) (firstStaging root) (some .directory)
        (root ++ rest) = none := by
    rw [Function.update_of_ne apart, withGenerations_eq_none empty beside]
  unfold stageGeneration
  simp only [nonempty, accepted, Bool.false_eq_true, if_false]
  refine canReturn_change (withGenerations_done empty)
    ((canReturn_createStagingDirectory ?_).bind ?_)
  · have unused := @withGenerations_eq_none root files empty ["generations", s!".staging-{1}-{1}"]
      (by simp [generationsRoot, List.prefix_append_right_inj])
    simpa [firstStaging, generationsRoot] using unused
  rintro _ _ ⟨rfl, rfl⟩
  have notHidden := not_isHidden_of_isGenerationId isId
  refine (canReturn_stageInto named (isStaging_firstStaging root) ?_ ?_ ?_ ?_).attempt.bind ?_
  · simp
  · intro name
    have unused := @elsewhere ["generations", s!".staging-{1}-{1}", name]
      (by simp [firstStaging, generationsRoot])
      (by simp [generationsRoot, List.prefix_append_right_inj])
    simpa [firstStaging, generationsRoot] using unused
  · have unused := @elsewhere
      ["generations", generationId codec (sortedByName GenerationFile.name members)]
      (by
        intro same
        have sameName : generationId codec (sortedByName GenerationFile.name members) =
            s!".staging-{1}-{1}" := by simpa [firstStaging, generationsRoot] using same
        exact notHidden (sameName ▸ isHidden_stagingName 1 1))
      (by simp [generationsRoot, List.prefix_append_right_inj])
    simpa [generationDirectory, generationsRoot] using unused
  · intro name apart
    exact elsewhere (by simp [firstStaging, generationsRoot])
      (by simpa [generationsRoot, List.prefix_append_right_inj] using apart)
  · rintro _ last ⟨staged, rfl, holds⟩
    exact holds

/-- A file that is not there can be written. -/
theorem canReturn_writeBytesAtomic {path : Path} {contents : Bytes} (isNew : files path = none)
    (unused : files (tempWritePath path 1 1) = none) :
    CanReturn FileStep (fun _ _ => True) (writeBytesAtomic path contents) files := by
  refine canReturn_look ?_
  rw [isNew]
  refine canReturn_uniqueNumbers (1, 1) ⟨.ok (), _, ⟨unused, rfl⟩, ?_⟩
  have publishes : CanReturn FileStep (fun _ _ => True)
      (publishThrough (tempWritePath path 1 1) path contents false)
      (Function.update files (tempWritePath path 1 1) (some (.file []))) := by
    refine @canReturn_change _ _ _ _ (.writeAll _ contents) _ rfl
      (@canReturn_change _ _ _ _ (.syncFile _) _ rfl ?_)
    refine @canReturn_change _ _ _ _ (.rename _ path) _ ⟨?_, rfl⟩ ⟨.ok (), _, rfl, trivial⟩
    simp
  exact publishes.attempt.bind fun outcome last ⟨_, isOk, _⟩ => by
    rw [isOk]
    trivial

/-- Pruning can come to its end. -/
theorem canReturn_pruneGenerations (manifest : GenerationManifest) :
    CanReturn FileStep (fun _ _ => True) (pruneGenerations root manifest) files :=
  ⟨.ok [], files, ⟨rfl, by simp⟩, .ok (), files, rfl, trivial⟩

/-- Where no manifest is yet, a generation that needs no repair can be promoted. -/
theorem canReturn_promote {staged : StagedGeneration} (fresh : NothingBeside staged files) :
    CanReturn FileStep (fun _ _ => True) (promote codec staged) files := by
  obtain ⟨undamaged, beside⟩ := fresh
  have noManifest : files (manifestPath staged.storeRoot) = none := beside _ (by decide)
  have noCandidates : generationCandidates codec files staged.storeRoot = [] := by
    rw [generationCandidates, readManifest, readBytesWithLimit, noManifest]
  have writes : CanReturn FileStep (fun _ _ => True)
      (writeBytesAtomic (manifestPath staged.storeRoot) (codec.renderManifest staged.manifest))
      files := by
    refine canReturn_writeBytesAtomic noManifest ?_
    obtain ⟨name, hidden, isBeside⟩ := isTemporary_tempWritePath (manifestPath staged.storeRoot) 1 1
    rw [isBeside, manifestPath, List.dropLast_concat]
    refine beside name ?_
    rintro rfl
    revert hidden
    unfold IsHidden
    decide
  have promotes : CanReturn FileStep (fun promoted _ => promoted.repair = none ∧
      promoted.promoted = true) (promoteStaged codec staged) files := by
    unfold promoteStaged
    simp only [undamaged]
    refine canReturn_look ?_
    rw [noCandidates, show staged.manifest.isSelected [] = false from rfl]
    exact writes.bind fun _ after _ =>
      (canReturn_pruneGenerations staged.manifest).bind fun _ last _ => ⟨rfl, rfl⟩
  unfold promote
  refine promotes.attempt.bind fun outcome after returned => ?_
  obtain ⟨promoted, isOk, undamaged, isPromoted⟩ := returned
  rw [isOk]
  unfold dropStaged
  simp only [undamaged, isPromoted]
  trivial

end Staging

end Kidobo
