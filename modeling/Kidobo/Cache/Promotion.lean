import Mathlib
import Kidobo.Cache.Staging

/-!
# Promoting a generation

Promotion repairs a damaged directory file by file, replaces the manifest and
removes the other generations. At every point each repaired file is the old one
or the staged one, and the manifest is the old one or the new one; the new one
stands only behind a complete directory.

## Main definitions

* `IsLeaf`, `Replaced`: files that are replaced as a whole
* `Repairing`, `Switched`: before and after the manifest is replaced

## Main results

* `ensures_writeBytesAtomic`
* `ensures_promoteStaged`, `ensures_promote`
* `Staged.ready`: what staging leaves can be promoted
-/

namespace Kidobo

open Foundation FileProgram

/-! ### Replacing a file -/

/-- The manifest, or a file of a generation. -/
def IsLeaf (root path : Path) : Prop :=
  path = manifestPath root ∨ ∃ id name, isGenerationId id = true ∧ isSafeFileName name = true ∧
    path = generationDirectory root id ++ [name]

/-- The file has these contents, and readers see no other difference. -/
structure Replaced (root path : Path) (contents : Bytes) (before after : FileSystem) : Prop where
  stands : after path = some (.file contents)
  elsewhere : ∀ other, ViewPath root other → other ≠ path → after other = before other

/-- What is there while a file is replaced. -/
def WriteState (root path : Path) (contents : Bytes) (before after : FileSystem) : Prop :=
  before.SameOutside path.dropLast after ∧
    (SameView root before after ∨ Replaced root path contents before after)

section Write

variable {root path temporary : Path} {contents : Bytes} {files middle after : FileSystem}

theorem IsLeaf.viewPath (leaf : IsLeaf root path) : ViewPath root path := by
  rcases leaf with rfl | ⟨id, name, isId, isSafe, rfl⟩
  · exact .manifest
  · exact .member isId isSafe

/-- Nothing that is looked at is below a leaf. -/
theorem IsLeaf.eq_of_below {other : Path} (leaf : IsLeaf root path) (seen : ViewPath root other)
    (below : path <+: other) : other = path := by
  rcases leaf with rfl | ⟨id, name, _, _, rfl⟩
  · cases seen <;>
      simp_all [manifestPath, generationDirectory, generationsRoot, List.prefix_append_right_inj]
  · cases seen <;>
      simp_all [manifestPath, generationDirectory, generationsRoot, List.prefix_append_right_inj]

/-- The directory of a leaf is in the store. -/
theorem IsLeaf.dropLast (leaf : IsLeaf root path) : ∃ front, path.dropLast = root ++ front := by
  rcases leaf with rfl | ⟨id, name, _, _, rfl⟩
  · exact ⟨[], by simp [manifestPath]⟩
  · exact ⟨["generations", id], by simp [generationDirectory, generationsRoot]⟩

theorem isHidden_tempName (name : String) (process counter : ℕ) :
    IsHidden s!".{name}.kidobo-tmp-{process}-{counter}" := by
  unfold IsHidden
  simp [toString, String.toList_append]

/-- A hidden file beside a leaf. -/
def IsTemporary (path temporary : Path) : Prop :=
  ∃ name, IsHidden name ∧ temporary = path.dropLast ++ [name]

theorem IsTemporary.unseen (leaf : IsLeaf root path) (isTemporary : IsTemporary path temporary)
    {other : Path} (seen : ViewPath root other) : ¬temporary <+: other := by
  obtain ⟨name, hidden, rfl⟩ := isTemporary
  obtain ⟨front, inStore⟩ := leaf.dropLast
  rw [inStore]
  exact not_below_hidden hidden seen

/-- A mutation of the temporary file is not seen. -/
theorem WriteState.step {mutation : Mutation} (leaf : IsLeaf root path)
    (isTemporary : IsTemporary path temporary) (state : WriteState root path contents files middle)
    (changed : mutation.Done middle after ∨ mutation.Failed middle after)
    (touches : ∀ other, mutation.Touches other → temporary <+: other) :
    WriteState root path contents files after := by
  have inside : path.dropLast <+: temporary := by
    obtain ⟨name, _, rfl⟩ := isTemporary
    exact List.prefix_append _ _
  have same : SameView root middle after := fun other seen =>
    mutation.frame changed fun touched => isTemporary.unseen leaf seen (touches other touched)
  refine ⟨state.1.step changed fun other touched => inside.trans (touches other touched), ?_⟩
  rcases state.2 with unseen | replaced
  · exact Or.inl (unseen.trans same)
  · refine Or.inr ⟨?_, fun other seen apart => ?_⟩
    · rw [same path leaf.viewPath, replaced.stands]
    · rw [same other seen, replaced.elsewhere other seen apart]

/-- Renaming a filled temporary file replaces the leaf. -/
theorem replaced_of_rename (leaf : IsLeaf root path) (isTemporary : IsTemporary path temporary)
    (same : SameView root files middle) (filled : middle temporary = some (.file contents))
    (renamed : Mutation.Done middle after (.rename temporary path)) :
    Replaced root path contents files after := by
  obtain ⟨_, rfl⟩ := renamed
  refine ⟨?_, fun other seen apart => ?_⟩
  · rw [FileSystem.moved, if_pos List.prefix_rfl, List.drop_length, List.append_nil, filled]
  · rw [FileSystem.moved, if_neg fun below => apart (leaf.eq_of_below seen below),
      if_neg (isTemporary.unseen leaf seen)]
    exact same other seen

/-- Filling the temporary file and renaming it. -/
theorem ensures_publishThrough (leaf : IsLeaf root path) (isTemporary : IsTemporary path temporary)
    (hasPermissions : Bool) (outside : files.SameOutside path.dropLast middle)
    (same : SameView root files middle) :
    Ensures (WriteState root path contents files)
      (fun _ after => files.SameOutside path.dropLast after ∧
        Replaced root path contents files after)
      (fun _ after => WriteState root path contents files after)
      (publishThrough temporary path contents hasPermissions) middle := by
  have unchanged : WriteState root path contents files middle := ⟨outside, Or.inl same⟩
  -- before the rename only the temporary file changes, which no reader sees
  have writes : Ensures (WriteState root path contents files)
      (fun _ after => files.SameOutside path.dropLast after ∧
        Replaced root path contents files after)
      (fun _ after => WriteState root path contents files after)
      (do
        change (.writeAll temporary contents)
        change (.syncFile temporary)
        change (.rename temporary path)
        change (.syncDirectory path.dropLast)) middle := by
    have atTemporary : ∀ other, (Mutation.writeAll temporary contents).Touches other →
        temporary <+: other := by
      rintro other rfl
      exact List.prefix_rfl
    refine ensures_change (fun written done => ?_) fun error last failed =>
      ⟨unchanged.step leaf isTemporary (Or.inr failed) atTemporary,
        unchanged.step leaf isTemporary (Or.inr failed) atTemporary⟩
    have state := unchanged.step leaf isTemporary (Or.inl done) atTemporary
    have filled : written temporary = some (.file contents) := by
      rw [show written = Function.update middle temporary (some (.file contents)) from done,
        Function.update_self]
    have sameWritten : SameView root files written := same.step (Or.inl done) fun other seen touched =>
      isTemporary.unseen leaf seen (atTemporary other touched)
    refine ⟨state, ensures_change (fun synced unwritten => ?_) fun error last failed => ?_⟩
    · obtain rfl : synced = written := unwritten
      refine ⟨state, ensures_change (fun renamed moved => ?_) fun error last failed => ?_⟩
      · have replaced := replaced_of_rename leaf isTemporary sameWritten filled moved
        have stillOutside : files.SameOutside path.dropLast renamed := by
          refine state.1.step (Or.inl moved) fun other touched => ?_
          have beside : path.dropLast <+: temporary := by
            obtain ⟨name, _, rfl⟩ := isTemporary
            exact List.prefix_append _ _
          rcases touched with below | below
          · exact beside.trans below
          · exact ( List.dropLast_prefix path).trans below
        refine ⟨⟨stillOutside, Or.inr replaced⟩,
          ensures_change_last (fun last done => ?_) fun error last failed => ?_⟩
        · obtain rfl : last = renamed := done
          exact ⟨⟨stillOutside, Or.inr replaced⟩, stillOutside, replaced⟩
        · obtain rfl : last = renamed := failed
          exact ⟨⟨stillOutside, Or.inr replaced⟩, stillOutside, Or.inr replaced⟩
      · obtain rfl : last = synced := failed
        exact ⟨state, state⟩
    · obtain rfl : last = written := failed
      exact ⟨state, state⟩
  -- permissions are set on the temporary file, when the target has any
  cases hasPermissions with
  | false => exact writes
  | true =>
    refine ensures_change (fun permitted done => ?_) fun error last failed => ?_
    · obtain rfl : permitted = middle := done
      exact ⟨unchanged, writes⟩
    · obtain rfl : last = middle := failed
      exact ⟨unchanged, unchanged⟩

theorem isTemporary_tempWritePath (path : Path) (process counter : ℕ) :
    IsTemporary path (tempWritePath path process counter) :=
  ⟨_, isHidden_tempName _ process counter, rfl⟩

theorem ensures_writeThroughTemporary (leaf : IsLeaf root path) (hasPermissions : Bool)
    (attempts : ℕ) :
    Ensures (WriteState root path contents files)
      (fun _ after => files.SameOutside path.dropLast after ∧
        Replaced root path contents files after)
      (fun _ after => WriteState root path contents files after)
      (writeThroughTemporary path contents hasPermissions attempts) files := by
  have unchanged : WriteState root path contents files files :=
    ⟨.refl _ _, Or.inl (.refl root files)⟩
  induction attempts with
  | zero => exact unchanged
  | succ attempts ih =>
    refine ensures_uniqueNumbers unchanged fun numbers => ?_
    obtain ⟨process, counter⟩ := numbers
    have isTemporary := isTemporary_tempWritePath path process counter
    refine ensures_perform (fun created done => ?_) fun error last failed => ?_
    · have atTemporary : ∀ other, (Mutation.createFile (tempWritePath path process counter)).Touches
          other → tempWritePath path process counter <+: other := by
        rintro other rfl
        exact List.prefix_rfl
      have state := unchanged.step leaf isTemporary (Or.inl done) atTemporary
      have same : SameView root files created := fun other seen =>
        Mutation.frame (Or.inl done) fun touched =>
          isTemporary.unseen leaf seen (atTemporary other touched)
      refine ⟨state, ensures_attempt
        (ensures_publishThrough leaf isTemporary hasPermissions state.1 same)
        (fun _ after replaced => replaced) fun error after left => ?_⟩
      refine ensures_bestEffort fun last removed => ?_
      have final := left.step leaf isTemporary removed (by
        rintro other rfl
        exact List.prefix_rfl)
      exact ⟨final, final⟩
    · obtain rfl : last = files := failed
      refine ⟨unchanged, ?_⟩
      cases error with
      | alreadyExists => exact ih
      | notFound => exact unchanged
      | failed reason => exact unchanged

/-- Whatever fails, the file is the old one or the new one, and no other file changes. -/
theorem ensures_writeBytesAtomic (leaf : IsLeaf root path) :
    Ensures (WriteState root path contents files)
      (fun _ after => files.SameOutside path.dropLast after ∧
        Replaced root path contents files after)
      (fun _ after => WriteState root path contents files after)
      (writeBytesAtomic path contents) files := by
  have unchanged : WriteState root path contents files files :=
    ⟨.refl _ _, Or.inl (.refl root files)⟩
  refine ensures_look unchanged fun view _ => ?_
  split
  · exact unchanged
  · exact ensures_writeThroughTemporary leaf _ 16

end Write

/-! ### Repair -/

/-- The files of a generation while it is repaired, each the old or the staged one. -/
structure Repairing (root : Path) (id : String) (members : List GenerationFile)
    (before after : FileSystem) : Prop where
  elsewhere : ∀ path, ViewPath root path → ¬generationDirectory root id <+: path →
    after path = before path
  files : ∀ file ∈ members,
    after (generationDirectory root id ++ [file.name]) =
        before (generationDirectory root id ++ [file.name]) ∨
      after (generationDirectory root id ++ [file.name]) = some (.file file.contents)

section Repair

variable {codec : GenerationCodec} {root : Path} {id : String} {members : List GenerationFile}
  {before middle after : FileSystem}

theorem Repairing.refl (root : Path) (id : String) (members : List GenerationFile)
    (files : FileSystem) : Repairing root id members files files :=
  ⟨fun _ _ _ => rfl, fun _ _ => Or.inl rfl⟩

theorem Repairing.congr (state : Repairing root id members before middle)
    (isId : isGenerationId id = true) (named : NamedFiles members) (same : SameView root middle after) :
    Repairing root id members before after := by
  refine ⟨fun path seen apart => ?_, fun file member => ?_⟩
  · rw [same path seen, state.elsewhere path seen apart]
  · rw [same _ (.member isId (named.safe file member))]
    exact state.files file member

/-- Writing the staged contents of a file goes on with the repair. -/
theorem Repairing.write {file : GenerationFile} (state : Repairing root id members before middle)
    (isId : isGenerationId id = true) (named : NamedFiles members) (member : file ∈ members)
    (written : WriteState root (generationDirectory root id ++ [file.name]) file.contents middle
      after) : Repairing root id members before after := by
  rcases written.2 with same | replaced
  · exact state.congr isId named same
  · refine ⟨fun path seen apart => ?_, fun other inMembers => ?_⟩
    · have elsewhere : path ≠ generationDirectory root id ++ [file.name] := by
        rintro rfl
        exact apart (List.prefix_append _ _)
      rw [replaced.elsewhere path seen elsewhere, state.elsewhere path seen apart]
    · by_cases sameName : other.name = file.name
      · have sameFile : other = file :=
          List.inj_on_of_nodup_map named.distinct inMembers member sameName
        rw [sameFile]
        exact Or.inr replaced.stands
      · rw [replaced.elsewhere _ (.member isId (named.safe other inMembers)) (by simpa using sameName)]
        exact state.files other inMembers

/-- The staging directory is not below a generation. -/
theorem IsStaging.apart {staging : Path} (isStaging : IsStaging root staging)
    (isId : isGenerationId id = true) (rest : Path) :
    ¬generationDirectory root id <+: staging ++ rest := by
  obtain ⟨name, hidden, rfl⟩ := isStaging
  intro below
  have same : id = name := by
    simpa [generationDirectory, List.prefix_append_right_inj, List.append_assoc] using below
  rw [same] at isId
  exact not_isHidden_of_isGenerationId isId hidden

/-- Each step of a repair writes a file as it is staged. -/
theorem ensures_repairMembers {staging : Path} {remaining : List GenerationFile}
    (isId : isGenerationId id = true) (named : NamedFiles members)
    (isStaging : IsStaging root staging) (areMembers : ∀ file ∈ remaining, file ∈ members)
    (filled : Remains middle staging members) (state : Repairing root id members before middle) :
    Ensures (Repairing root id members before) (fun _ after => Repairing root id members before after)
      (fun _ after => Repairing root id members before after)
      (repairMembers staging (generationDirectory root id) (exactLimits remaining)) middle := by
  induction remaining generalizing middle with
  | nil => exact state
  | cons file rest ih =>
    obtain ⟨member, later⟩ := List.forall_mem_cons.mp areMembers
    refine ensures_look state fun staged stagedShown => ?_
    cases read : readBytesWithLimit staged (staging ++ [file.name]) file.contents.length with
    | error error => exact state
    | ok contents =>
      -- what the staging directory shows is what it was filled with, unless it is gone
      have staged_eq : contents = file.contents := by
        unfold readBytesWithLimit at read
        rcases stagedShown (staging ++ [file.name]) with sameEntry | unreadable
        · rw [sameEntry] at read
          rcases filled file member with stands | gone
          · rw [stands] at read
            simpa using read.symm
          · rw [gone] at read
            cases read
        · rw [unreadable] at read
          cases read
      subst staged_eq
      refine ensures_look state fun current _ => ?_
      -- the staged files stay as they are while the damaged directory is written
      have continues {last : FileSystem}
          (written : WriteState root (generationDirectory root id ++ [file.name]) file.contents
            middle last) :
          Ensures (Repairing root id members before)
            (fun _ after => Repairing root id members before after)
            (fun _ after => Repairing root id members before after)
            (repairMembers staging (generationDirectory root id) (exactLimits rest)) last := by
        refine ih later (filled.congr fun other _ => ?_) (state.write isId named member written)
        apply written.1
        rw [List.dropLast_concat]
        exact isStaging.apart isId _
      split
      · refine ensures_bind (ensures_mono
          (ensures_writeBytesAtomic (.inr ⟨id, file.name, isId, named.safe file member, rfl⟩))
          (fun _ => state.write isId named member) (fun _ _ promised => promised)
          fun _ _ => state.write isId named member) ?_
        rintro _ last ⟨outside, replaced⟩
        exact continues ⟨outside, Or.inr replaced⟩
      · exact ih later filled state

/-- A repair that returns leaves the staged files. -/
theorem ensures_repairGeneration {staging : Path} (isId : isGenerationId id = true)
    (named : NamedFiles members) (isStaging : IsStaging root staging)
    (filled : Remains before staging members) :
    Ensures (Repairing root id members before)
      (fun _ after => Repairing root id members before after ∧
        generationContentsMatch codec after ⟨id, generationDirectory root id⟩
          (exactLimits members) = true)
      (fun _ after => Repairing root id members before after)
      (repairGeneration codec (generationDirectory root id) id ⟨staging, exactLimits members⟩)
      before := by
  refine ensures_bind (ensures_repairMembers isId named isStaging (fun _ member => member) filled
    (.refl root id members before)) fun _ repaired state => ?_
  refine ensures_change (fun synced done => ?_) fun error last failed => ?_
  · obtain rfl : synced = repaired := done
    refine ⟨state, ensures_look state fun view shown => ?_⟩
    split
    case isTrue matched => exact ⟨state, contentsMatch_of_shownBy shown matched⟩
    case isFalse => exact state
  · obtain rfl : last = repaired := failed
    exact ⟨state, state⟩

end Repair

/-! ### Promotion -/

/-- The manifest is written and read faithfully, and fits its limit. -/
def GenerationCodec.Faithful (codec : GenerationCodec) (manifest : GenerationManifest) : Prop :=
  codec.parseManifest (codec.renderManifest manifest) = some manifest ∧
    (codec.renderManifest manifest).length ≤ manifestReadLimit

/-- What a staged generation needs to be promoted: its directory is complete, or
it is repaired from what is left of the staged files. -/
structure Ready (codec : GenerationCodec) (root : Path) (members : List GenerationFile)
    (staged : StagedGeneration) (before : FileSystem) : Prop where
  named : NamedFiles members
  storeRoot : staged.storeRoot = root
  generationId : staged.generationId = generationId codec members
  isId : isGenerationId staged.generationId = true
  previous : ∀ other, staged.previous = some other →
    isGenerationId other = true ∧ other ≠ staged.generationId
  filled : staged.repair = none ∧
      Holds before (generationDirectory root staged.generationId) members ∨
    ∃ staging, staged.repair = some ⟨staging, exactLimits members⟩ ∧ IsStaging root staging ∧
      Remains before staging members

/-- The manifest names the staged generation, whose directory is complete, and
the one behind it, whose directory is as it was. -/
structure Switched (codec : GenerationCodec) (root : Path) (members : List GenerationFile)
    (staged : StagedGeneration) (before after : FileSystem) : Prop where
  manifest : readManifest codec after root = some staged.manifest
  holds : Holds after (generationDirectory root staged.generationId) members
  fallback : ∀ other, staged.previous = some other → ∀ name, isSafeFileName name = true →
    after (generationDirectory root other ++ [name]) =
      before (generationDirectory root other ++ [name])

/-- What there may be while a generation is promoted. -/
def PromotionState (codec : GenerationCodec) (root : Path) (members : List GenerationFile)
    (staged : StagedGeneration) (before after : FileSystem) : Prop :=
  Repairing root staged.generationId members before after ∨
    Switched codec root members staged before after

section Promote

/-- The fallback of a staged generation is another generation. -/
theorem previousOf_eq_some {candidates : List GenerationCandidate} {id other : String}
    {previous : Option String} (named : previousOf candidates id previous = some other) :
    isGenerationId other = true ∧ other ≠ id := by
  rw [previousOf, Option.filter_eq_some_iff] at named
  simpa using named.2

/-- What staging leaves can be promoted. -/
theorem Staged.ready {codec : GenerationCodec} {root : Path} {members : List GenerationFile}
    {previous : Option String} {before after : FileSystem} {staged : StagedGeneration}
    (made : Staged codec root members previous before after staged) (named : NamedFiles members)
    (isId : isGenerationId (Kidobo.generationId codec members) = true)
    (unique : codec.Unique (encodeParts (partsOf members))) :
    Ready codec root members staged after where
  named := named
  storeRoot := made.storeRoot
  generationId := made.generationId
  isId := by rw [made.generationId, isId]
  previous := by
    obtain ⟨view, _, previous_eq⟩ := made.previous
    intro other isPrevious
    rw [previous_eq] at isPrevious
    exact previousOf_eq_some isPrevious
  filled := by
    have outcome := made.outcome
    generalize staged.repair = repair, staged.removeOnDrop = removeOnDrop at outcome ⊢
    cases outcome with
    | complete _ matched =>
      rw [made.generationId] at matched ⊢
      exact Or.inl ⟨rfl, holds_of_contentsMatch named unique matched⟩
    | damaged isStaging _ filled => exact Or.inr ⟨_, rfl, isStaging, filled.remains⟩
    | published published => exact Or.inl ⟨rfl, published.holds⟩

variable {codec : GenerationCodec} {root : Path} {members : List GenerationFile}
  {staged : StagedGeneration} {before middle after : FileSystem}

/-- A look at a manifest that names a generation shows the manifest. -/
theorem readManifest_of_isSelected {view : FileSystem} (shown : middle.ShownBy view)
    (selected : staged.manifest.isSelected (generationCandidates codec view root) = true) :
    readManifest codec middle root = some staged.manifest := by
  unfold generationCandidates at selected
  split at selected
  case h_1 => cases selected
  case h_2 manifest read =>
    rw [readManifest_of_shownBy shown read]
    obtain ⟨_, _, _, wellFormed⟩ := readManifest_eq_some_iff.mp read
    obtain ⟨version, current, previous⟩ := manifest
    obtain rfl : version = cacheSchemaVersion := wellFormed.version
    cases previous <;>
      simp_all [GenerationManifest.isSelected, GenerationManifest.candidates,
        StagedGeneration.manifest]

/-- Removing what the manifest does not name goes on with the promotion. -/
theorem Switched.sameSelection (switched : Switched codec root members staged before middle)
    (same : SameSelection codec root middle after) :
    Switched codec root members staged before after := by
  have candidates : generationCandidates codec middle root = staged.manifest.candidates root := by
    rw [generationCandidates, switched.manifest]
  have isCurrent : ⟨staged.generationId, generationDirectory root staged.generationId⟩ ∈
      generationCandidates codec middle root := by
    rw [candidates]
    exact List.mem_cons_self
  refine ⟨?_, fun file member => ?_, fun other isPrevious name isSafe => ?_⟩
  · rw [readManifest_congr same.manifest, switched.manifest]
  · rw [same _ (not_unselected_member file.name isCurrent)]
    exact switched.holds file member
  · have isFallback : ⟨other, generationDirectory root other⟩ ∈
        generationCandidates codec middle root := by
      rw [candidates, GenerationManifest.candidates, StagedGeneration.manifest, isPrevious]
      simp
    rw [same _ (not_unselected_member name isFallback)]
    exact switched.fallback other isPrevious name isSafe

/-- The manifest that is written selects the staged generation. -/
theorem Switched.of_replaced (ready : Ready codec root members staged before)
    (faithful : codec.Faithful staged.manifest)
    (state : Repairing root staged.generationId members before middle)
    (holds : Holds middle (generationDirectory root staged.generationId) members)
    (replaced : Replaced root (manifestPath root) (codec.renderManifest staged.manifest) middle
      after) : Switched codec root members staged before after := by
  have member {id name : String} (isId : isGenerationId id = true)
      (isSafe : isSafeFileName name = true) :
      after (generationDirectory root id ++ [name]) = middle (generationDirectory root id ++ [name]) := by
    refine replaced.elsewhere _ (.member isId isSafe) fun same => ?_
    have sameLength := congrArg List.length same
    simp [generationDirectory, generationsRoot, manifestPath] at sameLength
  refine ⟨?_, fun file inMembers => ?_, fun other isPrevious name isSafe => ?_⟩
  · refine readManifest_eq_some_iff.mpr ⟨_, ?_, faithful.1, rfl, ready.isId, ready.previous⟩
    rw [readBytesWithLimit, replaced.stands]
    exact if_neg (not_lt.mpr faithful.2)
  · rw [member ready.isId (ready.named.safe file inMembers)]
    exact holds file inMembers
  · obtain ⟨isId, apart⟩ := ready.previous other isPrevious
    rw [member isId isSafe]
    exact state.elsewhere _ (.member isId isSafe) fun below => apart (eq_of_same_directory below).symm

/-- Selecting a generation whose directory is complete. -/
theorem ensures_select (ready : Ready codec root members staged before)
    (faithful : codec.Faithful staged.manifest)
    (state : Repairing root staged.generationId members before middle)
    (holds : Holds middle (generationDirectory root staged.generationId) members)
    (promoted : StagedGeneration) :
    Ensures (PromotionState codec root members staged before)
      (fun value after => value = promoted ∧ Switched codec root members staged before after)
      (fun _ after => PromotionState codec root members staged before after)
      (do
        let files ← look
        if staged.manifest.isSelected (generationCandidates codec files root) then return promoted
        else
          writeBytesAtomic (manifestPath root) (codec.renderManifest staged.manifest)
          pruneGenerations root staged.manifest
          return promoted) middle := by
  have fallback : ∀ other, staged.previous = some other → ∀ name, isSafeFileName name = true →
      middle (generationDirectory root other ++ [name]) =
        before (generationDirectory root other ++ [name]) := by
    intro other isPrevious name isSafe
    obtain ⟨isId, apart⟩ := ready.previous other isPrevious
    exact state.elsewhere _ (.member isId isSafe) fun below => apart (eq_of_same_directory below).symm
  refine ensures_look (Or.inl state) fun view shown => ?_
  split
  case isTrue selected => exact ⟨rfl, readManifest_of_isSelected shown selected, holds, fallback⟩
  case isFalse =>
    have written {last : FileSystem}
        (write : WriteState root (manifestPath root) (codec.renderManifest staged.manifest) middle
          last) : PromotionState codec root members staged before last := by
      rcases write.2 with same | replaced
      · exact Or.inl (state.congr ready.isId ready.named same)
      · exact Or.inr (.of_replaced ready faithful state holds replaced)
    refine ensures_bind (ensures_mono (ensures_writeBytesAtomic (Or.inl rfl)) (fun _ => written)
      (fun _ _ promised => promised) fun _ _ => written) ?_
    rintro _ switchedFiles ⟨_, replaced⟩
    have switched := Switched.of_replaced ready faithful state holds replaced
    -- what is pruned is not named by the new manifest
    refine ensures_bind (ensures_mono
      (ensures_pruneDirectory (keeps_of_readManifest switched.manifest) fun _ _ => rfl)
      (fun _ kept => Or.inr (switched.sameSelection kept))
      (fun _ _ kept => switched.sameSelection kept) fun _ _ => False.elim) ?_
    exact fun _ last after => ⟨rfl, after⟩

/-- Whatever fails, the manifest is the old one, or the new one behind a complete
directory; when promotion returns, it is the new one. -/
theorem ensures_promoteStaged (ready : Ready codec root members staged before)
    (unique : codec.Unique (encodeParts (partsOf members)))
    (faithful : codec.Faithful staged.manifest) :
    Ensures (PromotionState codec root members staged before)
      (fun promoted after => promoted = { staged with promoted := true, removeOnDrop := false } ∧
        Switched codec root members staged before after)
      (fun _ after => PromotionState codec root members staged before after)
      (promoteStaged codec staged) before := by
  obtain rfl := ready.storeRoot
  unfold promoteStaged
  rcases ready.filled with ⟨undamaged, holds⟩ | ⟨staging, damaged, isStaging, filled⟩
  · simp only [undamaged]
    exact ensures_select ready faithful (.refl _ _ _ _) holds _
  · simp only [damaged]
    refine ensures_bind (ensures_mono
      (ensures_repairGeneration ready.isId ready.named isStaging filled)
      (fun _ => Or.inl) (fun _ _ promised => promised) fun _ _ => Or.inl) ?_
    rintro _ repaired ⟨state, matched⟩
    rw [ready.generationId] at matched
    have holds := holds_of_contentsMatch ready.named unique matched
    rw [← ready.generationId] at holds
    exact ensures_select ready faithful state holds _

/-! ### Dropping -/

theorem Switched.congr (switched : Switched codec root members staged before middle)
    (ready : Ready codec root members staged before) (same : SameView root middle after) :
    Switched codec root members staged before after := by
  refine ⟨?_, fun file member => ?_, fun other isPrevious name isSafe => ?_⟩
  · rw [readManifest_congr (same _ .manifest), switched.manifest]
  · rw [same _ (.member ready.isId (ready.named.safe file member))]
    exact switched.holds file member
  · rw [same _ (.member (ready.previous other isPrevious).1 isSafe)]
    exact switched.fallback other isPrevious name isSafe

theorem PromotionState.congr (state : PromotionState codec root members staged before middle)
    (ready : Ready codec root members staged before) (same : SameView root middle after) :
    PromotionState codec root members staged before after := by
  rcases state with repairing | switched
  · exact Or.inl (repairing.congr ready.isId ready.named same)
  · exact Or.inr (switched.congr ready same)

/-- The directory of the generation is being removed again. -/
structure Abandoned (codec : GenerationCodec) (root : Path) (staged : StagedGeneration)
    (before after : FileSystem) : Prop where
  removes : staged.removeOnDrop = true
  rest : (∀ path, ViewPath root path → ¬generationDirectory root staged.generationId <+: path →
      after path = before path) ∨
    readManifest codec after root = some staged.manifest ∧
      ∀ other, staged.previous = some other → ∀ name, isSafeFileName name = true →
        after (generationDirectory root other ++ [name]) =
          before (generationDirectory root other ++ [name])

theorem Abandoned.of_removed (ready : Ready codec root members staged before)
    (state : PromotionState codec root members staged before middle)
    (removes : staged.removeOnDrop = true)
    (removed : Mutation.Done middle after
        (.removeDirAll (generationDirectory root staged.generationId)) ∨
      Mutation.Failed middle after
        (.removeDirAll (generationDirectory root staged.generationId))) :
    Abandoned codec root staged before after := by
  refine ⟨removes, ?_⟩
  rcases state with repairing | switched
  · left
    intro path seen apart
    rw [Mutation.frame removed apart, repairing.elsewhere path seen apart]
  · refine Or.inr ⟨?_, fun other isPrevious name isSafe => ?_⟩
    · rw [readManifest_congr (Mutation.frame removed not_directory_prefix_manifest),
        switched.manifest]
    · have apart := (ready.previous other isPrevious).2
      rw [Mutation.frame removed fun below => apart (eq_of_same_directory below).symm]
      exact switched.fallback other isPrevious name isSafe

/-- What there may be while a generation is promoted and dropped. -/
def PromoteState (codec : GenerationCodec) (root : Path) (members : List GenerationFile)
    (staged : StagedGeneration) (before after : FileSystem) : Prop :=
  PromotionState codec root members staged before after ∨ Abandoned codec root staged before after

/-- Dropping removes what staging left, and nothing else. -/
theorem ensures_dropStaged (ready : Ready codec root members staged before)
    (state : PromotionState codec root members staged before middle) :
    Ensures (PromoteState codec root members staged before)
      (fun _ after => PromoteState codec root members staged before after) (fun _ _ => False)
      (dropStaged staged) middle := by
  have drops {middle : FileSystem}
      (state : PromotionState codec root members staged before middle) :
      Ensures (PromoteState codec root members staged before)
        (fun _ after => PromoteState codec root members staged before after) (fun _ _ => False)
        (if !staged.promoted && staged.removeOnDrop then
          bestEffort (change (.removeDirAll
            (generationDirectory root staged.generationId)))
        else return ()) middle := by
    split
    case isTrue unpromoted =>
      rw [Bool.and_eq_true] at unpromoted
      refine ensures_bestEffort_last fun after removed => ?_
      have abandoned := Abandoned.of_removed ready state unpromoted.2 removed
      exact ⟨Or.inr abandoned, Or.inr abandoned⟩
    case isFalse => exact Or.inl state
  obtain rfl := ready.storeRoot
  unfold dropStaged
  rcases ready.filled with ⟨undamaged, _⟩ | ⟨staging, damaged, isStaging, _⟩
  · simp only [undamaged]
    exact drops state
  · simp only [damaged]
    refine ensures_bestEffort fun after removed => ?_
    have still := state.congr ready (isStaging.removed removed)
    exact ⟨Or.inl still, drops still⟩

/-- Dropping what was promoted removes at most its staging directory. -/
theorem ensures_dropStaged_promoted (ready : Ready codec root members staged before)
    (switched : Switched codec root members staged before middle) :
    Ensures (PromoteState codec root members staged before)
      (fun _ after => Switched codec root members staged before after) (fun _ _ => False)
      (dropStaged { staged with promoted := true, removeOnDrop := false }) middle := by
  unfold dropStaged
  rcases ready.filled with ⟨undamaged, _⟩ | ⟨staging, damaged, isStaging, _⟩
  · simp only [undamaged]
    exact switched
  · simp only [damaged]
    refine ensures_bestEffort fun after removed => ?_
    have still := switched.congr ready (isStaging.removed removed)
    exact ⟨Or.inl (Or.inr still), still⟩

/-- Whatever fails, promotion with the drop that follows it leaves the manifest
as it was, or the new one. -/
theorem ensures_promote (ready : Ready codec root members staged before)
    (unique : codec.Unique (encodeParts (partsOf members)))
    (faithful : codec.Faithful staged.manifest) :
    Ensures (PromoteState codec root members staged before)
      (fun id after => id = staged.generationId ∧
        Switched codec root members staged before after)
      (fun _ after => PromoteState codec root members staged before after)
      (promote codec staged) before := by
  unfold promote
  refine ensures_attempt (ensures_mono (ensures_promoteStaged ready unique faithful)
    (fun _ => Or.inl) (fun _ _ promised => promised) fun _ _ promised => promised) ?_ ?_
  · rintro _ after ⟨rfl, switched⟩
    refine ensures_bind (ensures_mono (ensures_dropStaged_promoted ready switched)
      (fun _ kept => kept) (fun _ _ kept => kept) fun _ _ => False.elim) ?_
    exact fun _ last kept => ⟨rfl, kept⟩
  · intro error after state
    refine ensures_bind (ensures_mono (ensures_dropStaged ready state)
      (fun _ kept => kept) (fun _ _ kept => kept) fun _ _ => False.elim) ?_
    exact fun _ last kept => kept

end Promote

end Kidobo
