import Kidobo.Cache.Cleanup
import Kidobo.Cache.GenerationId
import Kidobo.Foundation.Traverse

/-!
# What readers of a store look at

Readers look at the manifest and at visible files in the directories of
generations. Temporary files and staging directories have hidden names, so
nothing that happens in them is seen.

## Main definitions

* `ViewPath`, `SameView`: the paths that are looked at, and their agreement
* `Holds`, `Remains`: a directory with these files in it, or with what is left of them

## Main results

* `not_below_hidden`: nothing that is looked at has a hidden name
* `SameView.candidates`, `SameView.contentsMatch`: readers see no difference
* `readMembers_of_holds`, `forall₂_of_readMembers`: what is read is what stands there
-/

namespace Kidobo

open Foundation FileProgram

/-! ### Paths -/

/-- A name that starts with a dot. -/
def IsHidden (name : String) : Prop := name.toList.head? = some '.'

/-- The paths that readers of a store look at. -/
inductive ViewPath (root : Path) : Path → Prop
  | manifest : ViewPath root (manifestPath root)
  | directory {id : String} (isId : isGenerationId id = true) :
      ViewPath root (generationDirectory root id)
  | member {id name : String} (isId : isGenerationId id = true)
      (isSafe : isSafeFileName name = true) :
      ViewPath root (generationDirectory root id ++ [name])

theorem not_isHidden_of_isGenerationId {id : String} (isId : isGenerationId id = true) :
    ¬IsHidden id := by
  intro hidden
  rw [not_isGenerationId_dot hidden] at isId
  cases isId

theorem not_isHidden_of_isSafeFileName {name : String} (isSafe : isSafeFileName name = true) :
    ¬IsHidden name := by
  intro hidden
  rw [isSafeFileName, hidden] at isSafe
  simp at isSafe

/-- Nothing that is looked at has a hidden name. -/
theorem ViewPath.visible {root path : Path} (seen : ViewPath root path) :
    ∃ rest, path = root ++ rest ∧ ∀ name ∈ rest, ¬IsHidden name := by
  have generations : ¬IsHidden "generations" := by unfold IsHidden; decide
  cases seen with
  | manifest =>
    refine ⟨["current.json"], rfl, fun name member => ?_⟩
    obtain rfl := List.mem_singleton.mp member
    unfold IsHidden
    decide
  | @directory id isId =>
    refine ⟨["generations", id], by simp [generationDirectory, generationsRoot], ?_⟩
    intro name member
    rcases List.mem_cons.mp member with rfl | isLast
    · exact generations
    · obtain rfl := List.mem_singleton.mp isLast
      exact not_isHidden_of_isGenerationId isId
  | @member id file isId isSafe =>
    refine ⟨["generations", id, file], by simp [generationDirectory, generationsRoot], ?_⟩
    intro name member
    rcases List.mem_cons.mp member with rfl | later
    · exact generations
    · rcases List.mem_cons.mp later with rfl | isLast
      · exact not_isHidden_of_isGenerationId isId
      · obtain rfl := List.mem_singleton.mp isLast
        exact not_isHidden_of_isSafeFileName isSafe

theorem not_below_hidden {root front path : Path} {name : String} (hidden : IsHidden name)
    (seen : ViewPath root path) : ¬root ++ front ++ [name] <+: path := by
  rintro ⟨rest, rfl⟩
  obtain ⟨visible, same, notHidden⟩ := seen.visible
  rw [List.append_assoc, List.append_assoc] at same
  rw [← List.append_cancel_left same] at notHidden
  exact notHidden name (by simp) hidden

/-- The directories of two generations are not below each other. -/
theorem eq_of_same_directory {root : Path} {id other : String} {rest : Path}
    (below : generationDirectory root id <+: generationDirectory root other ++ rest) : id = other := by
  simpa [generationDirectory, generationsRoot, List.prefix_append_right_inj, List.append_assoc]
    using below

theorem not_directory_prefix_manifest {root : Path} {id : String} :
    ¬generationDirectory root id <+: manifestPath root := by
  intro below
  have longer := below.length_le
  simp [generationDirectory, generationsRoot, manifestPath] at longer

/-! ### Agreement -/

/-- Readers of the store see no difference. -/
def SameView (root : Path) (before after : FileSystem) : Prop :=
  ∀ path, ViewPath root path → after path = before path

namespace SameView

variable {root : Path} {before middle after : FileSystem}

theorem refl (root : Path) (files : FileSystem) : SameView root files files := fun _ _ => rfl

theorem trans (first : SameView root before middle) (second : SameView root middle after) :
    SameView root before after := fun path seen => (second path seen).trans (first path seen)

/-- Changes below a hidden name are not seen. -/
theorem of_hidden {front : Path} {name : String} (hidden : IsHidden name)
    (same : before.SameOutside (root ++ front ++ [name]) after) : SameView root before after :=
  fun path seen => same path (not_below_hidden hidden seen)

/-- A mutation of other paths is not seen. -/
theorem step {mutation : Mutation} (same : SameView root before middle)
    (changed : mutation.Done middle after ∨ mutation.Failed middle after)
    (unseen : ∀ path, ViewPath root path → ¬mutation.Touches path) :
    SameView root before after := fun path seen =>
  (mutation.frame changed (unseen path seen)).trans (same path seen)

variable {codec : GenerationCodec}

theorem candidates (same : SameView root before after) :
    generationCandidates codec after root = generationCandidates codec before root :=
  generationCandidates_congr (same _ .manifest)

end SameView

/-- Reading members looks at their paths only. -/
theorem readMembers_congr_of_mem {files other : FileSystem} {directory : Path}
    {limits : List GenerationFileLimit}
    (same : ∀ member ∈ limits,
      other (directory ++ [member.name]) = files (directory ++ [member.name])) :
    readMembers other directory limits = readMembers files directory limits := by
  induction limits with
  | nil => rfl
  | cons member rest ih =>
    obtain ⟨first, others⟩ := List.forall_mem_cons.mp same
    rw [readMembers, readMembers, ih others, readBytesWithLimit_congr member.readLimit first]

/-- Every member of a generation has a safe name. -/
def SafeNames (limits : List GenerationFileLimit) : Prop :=
  ∀ member ∈ limits, isSafeFileName member.name = true

theorem SameView.readMembers {root : Path} {before after : FileSystem} {id : String}
    {limits : List GenerationFileLimit} (same : SameView root before after)
    (isId : isGenerationId id = true) (safeNames : SafeNames limits) :
    readMembers after (generationDirectory root id) limits =
      Kidobo.readMembers before (generationDirectory root id) limits :=
  readMembers_congr_of_mem fun member inLimits => same _ (.member isId (safeNames member inLimits))

theorem SameView.contentsMatch {codec : GenerationCodec} {root : Path}
    {before after : FileSystem} {id : String} {limits : List GenerationFileLimit}
    (same : SameView root before after) (isId : isGenerationId id = true)
    (safeNames : SafeNames limits) :
    generationContentsMatch codec after ⟨id, generationDirectory root id⟩ limits =
      generationContentsMatch codec before ⟨id, generationDirectory root id⟩ limits := by
  rw [generationContentsMatch, generationContentsMatch, same.readMembers isId safeNames]

/-- What a manifest must say to select generations. -/
structure GenerationManifest.WellFormed (manifest : GenerationManifest) : Prop where
  version : manifest.version = cacheSchemaVersion
  current : isGenerationId manifest.current = true
  previous : ∀ other, manifest.previous = some other →
    isGenerationId other = true ∧ other ≠ manifest.current

theorem readManifest_eq_some_iff {codec : GenerationCodec} {files : FileSystem} {root : Path}
    {manifest : GenerationManifest} :
    readManifest codec files root = some manifest ↔
      ∃ bytes, readBytesWithLimit files (manifestPath root) manifestReadLimit = .ok bytes ∧
        codec.parseManifest bytes = some manifest ∧ manifest.WellFormed := by
  unfold readManifest
  cases read : readBytesWithLimit files (manifestPath root) manifestReadLimit with
  | error error => simp
  | ok bytes =>
    simp only [Except.ok.injEq, exists_eq_left']
    cases parsed : codec.parseManifest bytes with
    | none => simp
    | some found =>
      simp only [Option.some.injEq]
      have wellFormed_iff : found.WellFormed ↔ found.version = cacheSchemaVersion ∧
          (!isGenerationId found.current || found.previous.any fun previous =>
            !isGenerationId previous || previous == found.current) = false := by
        constructor
        · rintro ⟨version, current, previous⟩
          refine ⟨version, ?_⟩
          cases isPrevious : found.previous with
          | none => simp [current]
          | some other => simpa [current] using previous other isPrevious
        · rintro ⟨version, ids⟩
          rw [Bool.or_eq_false_iff, Bool.not_eq_false'] at ids
          refine ⟨version, ids.1, fun other isPrevious => ?_⟩
          simpa [isPrevious] using ids.2
      split_ifs with wrongVersion wrongIds
      · simp only [false_iff, not_and]
        rintro rfl wellFormed
        exact wrongVersion wellFormed.version
      · simp only [false_iff, not_and]
        rintro rfl wellFormed
        rw [(wellFormed_iff.mp wellFormed).2] at wrongIds
        cases wrongIds
      · constructor
        · intro same
          obtain rfl := Option.some.inj same
          exact ⟨rfl, wellFormed_iff.mpr ⟨not_not.mp wrongVersion, Bool.eq_false_iff.mpr wrongIds⟩⟩
        · rintro ⟨rfl, _⟩
          rfl

/-- The ids that a manifest names are generation ids. -/
theorem isGenerationId_of_mem_candidates {codec : GenerationCodec} {files : FileSystem}
    {root : Path} {candidate : GenerationCandidate}
    (member : candidate ∈ generationCandidates codec files root) :
    isGenerationId candidate.id = true := by
  unfold generationCandidates at member
  split at member
  case h_1 => cases member
  case h_2 manifest read =>
    obtain ⟨_, _, _, wellFormed⟩ := readManifest_eq_some_iff.mp read
    obtain ⟨id, named, rfl⟩ := List.mem_map.mp member
    rcases List.mem_cons.mp named with rfl | isPrevious
    · exact wellFormed.current
    · exact (wellFormed.previous id (Option.mem_toList.mp isPrevious)).1

/-! ### Contents -/

/-- A directory with these files in it. -/
def Holds (files : FileSystem) (directory : Path) (members : List GenerationFile) : Prop :=
  ∀ file ∈ members, files (directory ++ [file.name]) = some (.file file.contents)

theorem Holds.congr {before after : FileSystem} {directory : Path} {members : List GenerationFile}
    (holds : Holds before directory members)
    (same : ∀ file ∈ members,
      after (directory ++ [file.name]) = before (directory ++ [file.name])) :
    Holds after directory members := fun file member => (same file member).trans (holds file member)

/-- Those of these files that are in the directory have these contents. -/
def Remains (files : FileSystem) (directory : Path) (members : List GenerationFile) : Prop :=
  ∀ file ∈ members, files (directory ++ [file.name]) = some (.file file.contents) ∨
    files (directory ++ [file.name]) = none

theorem Holds.remains {files : FileSystem} {directory : Path} {members : List GenerationFile}
    (holds : Holds files directory members) : Remains files directory members :=
  fun file member => Or.inl (holds file member)

theorem Remains.congr {before after : FileSystem} {directory : Path} {members : List GenerationFile}
    (remains : Remains before directory members)
    (same : ∀ file ∈ members,
      after (directory ++ [file.name]) = before (directory ++ [file.name])) :
    Remains after directory members := by
  intro file member
  rw [same file member]
  exact remains file member

/-- The limits that just fit these files. -/
def exactLimits (members : List GenerationFile) : List GenerationFileLimit :=
  members.map fun file => ⟨file.name, file.contents.length⟩

/-- The hashed parts of these files. -/
def partsOf (members : List GenerationFile) : List (String × Bytes) :=
  members.map fun file => (file.name, file.contents)

/-- Files that fit their limits are read. -/
theorem readMembers_of_holds {files : FileSystem} {directory : Path}
    {members : List GenerationFile} {limits : List GenerationFileLimit}
    (holds : Holds files directory members)
    (fits : List.Forall₂ (fun (limit : GenerationFileLimit) (file : GenerationFile) =>
      limit.name = file.name ∧ file.contents.length ≤ limit.readLimit) limits members) :
    readMembers files directory limits = some (partsOf members) := by
  induction fits with
  | nil => rfl
  | @cons limit file laterLimits laterFiles first rest ih =>
    obtain ⟨stands, others⟩ := List.forall_mem_cons.mp holds
    have read : readBytesWithLimit files (directory ++ [limit.name]) limit.readLimit =
        .ok file.contents := by
      rw [readBytesWithLimit, first.1, stands]
      simp only [if_neg (Nat.not_lt.mpr first.2)]
    rw [readMembers, read, ih others, first.1]
    rfl

/-- What was read stands in the directory, within its limits. -/
theorem forall₂_of_readMembers {files : FileSystem} {directory : Path}
    {limits : List GenerationFileLimit} {parts : List (String × Bytes)}
    (read : readMembers files directory limits = some parts) :
    List.Forall₂ (fun (limit : GenerationFileLimit) (part : String × Bytes) =>
      part.1 = limit.name ∧ part.2.length ≤ limit.readLimit ∧
        files (directory ++ [part.1]) = some (.file part.2)) limits parts := by
  induction limits generalizing parts with
  | nil =>
    obtain rfl := Option.some.inj read
    exact .nil
  | cons limit rest ih =>
    rw [readMembers] at read
    simp only [Option.bind_eq_bind, Option.bind_eq_some_iff, Option.pure_def,
      Option.some.injEq] at read
    obtain ⟨contents, stands, later, laterRead, rfl⟩ := read
    refine .cons ⟨rfl, ?_⟩ (ih laterRead)
    unfold readBytesWithLimit at stands
    split at stands
    case h_2 bytes isFile =>
      split_ifs at stands with exceeds
      · cases stands
      · obtain rfl := Option.some.inj stands
        exact ⟨Nat.not_lt.mp exceeds, isFile⟩
    all_goals cases stands

theorem names_of_readMembers {files : FileSystem} {directory : Path}
    {limits : List GenerationFileLimit} {parts : List (String × Bytes)}
    (read : readMembers files directory limits = some parts) :
    parts.map Prod.fst = limits.map GenerationFileLimit.name := by
  have pairs : List.Forall₂ (· = ·) (parts.map Prod.fst)
      (limits.map GenerationFileLimit.name) := by
    rw [List.forall₂_map_left_iff, List.forall₂_map_right_iff]
    exact (forall₂_of_readMembers read).flip.imp fun _ _ pair => pair.1
  rwa [List.forall₂_eq_eq_eq] at pairs

/-- Every part that was read stands in the directory. -/
theorem stands_of_readMembers {files : FileSystem} {directory : Path}
    {limits : List GenerationFileLimit} {parts : List (String × Bytes)}
    (read : readMembers files directory limits = some parts) :
    ∀ part ∈ parts, files (directory ++ [part.1]) = some (.file part.2) := by
  intro part member
  obtain ⟨limit, _, _, _, stands⟩ := exists_of_forall₂_right (forall₂_of_readMembers read) member
  exact stands

end Kidobo
