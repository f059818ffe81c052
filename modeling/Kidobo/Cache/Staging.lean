import Kidobo.Cache.StoreView

/-!
# Staging a generation

Staging fills a hidden directory and then gives it the name of its contents,
when nothing has that name. Whatever fails, readers of the store see what was
there before, or the new directory complete. Without the directory having been
absent they see no difference at all.

## Main definitions

* `IsStaging`: the hidden directories that are filled
* `Published`: what readers see of a new directory
* `StageOutcome`, `Staged`: what a successful staging leaves

## Main results

* `ensures_stageGeneration`
* `holds_of_contentsMatch`: a directory that matches a generation contains its files
-/

namespace Kidobo

open Foundation FileProgram

/-- A hidden directory beside the generations. -/
def IsStaging (root staging : Path) : Prop :=
  ∃ name, IsHidden name ∧ staging = generationsRoot root ++ [name]

/-- The directory of the generation appeared, with these files in it. -/
structure Published (root : Path) (id : String) (members : List GenerationFile)
    (before after : FileSystem) : Prop where
  absent : before (generationDirectory root id) = none
  elsewhere : ∀ path, ViewPath root path → ¬generationDirectory root id <+: path →
    after path = before path
  holds : Holds after (generationDirectory root id) members

/-- What readers of the store may see while a generation is staged. -/
def StageState (root : Path) (id : String) (members : List GenerationFile)
    (before after : FileSystem) : Prop :=
  SameView root before after ∨ Published root id members before after

/-- The files of a generation, in the order of their names. -/
structure NamedFiles (members : List GenerationFile) : Prop where
  safe : ∀ file ∈ members, isSafeFileName file.name = true
  ascending : members.Pairwise fun left right => left.name ≤ right.name
  distinct : (members.map GenerationFile.name).Nodup

theorem pairwise_sortedByName {α : Type} (name : α → String) (items : List α) :
    (sortedByName name items).Pairwise fun left right => name left ≤ name right := by
  have sorted := @List.pairwise_mergeSort α (fun left right => decide (name left ≤ name right))
    (fun _ _ _ => by simpa using le_trans) (fun left right => by simpa using le_total _ _) items
  simpa [sortedByName] using sorted

theorem sortedByName_of_pairwise {α : Type} {name : α → String} {items : List α}
    (ascending : items.Pairwise fun left right => name left ≤ name right) :
    sortedByName name items = items :=
  List.mergeSort_of_pairwise (by simpa using ascending)

section

variable {root : Path} {id : String} {members : List GenerationFile}
  {files before middle after : FileSystem}

theorem IsStaging.sameView {staging : Path} (isStaging : IsStaging root staging)
    (same : before.SameOutside staging after) : SameView root before after := by
  obtain ⟨name, hidden, rfl⟩ := isStaging
  exact SameView.of_hidden hidden same

theorem IsStaging.unseen {staging path : Path} (isStaging : IsStaging root staging)
    (seen : ViewPath root path) : ¬staging <+: path := by
  obtain ⟨name, hidden, rfl⟩ := isStaging
  exact not_below_hidden hidden seen

/-- Removing a staging directory is not seen. -/
theorem IsStaging.removed {staging : Path} (isStaging : IsStaging root staging)
    (removed : Mutation.Done before after (.removeDirAll staging) ∨
      Mutation.Failed before after (.removeDirAll staging)) : SameView root before after :=
  isStaging.sameView fun _ outside => Mutation.frame removed outside

theorem Published.congr (published : Published root id members before middle)
    (isId : isGenerationId id = true) (named : NamedFiles members)
    (same : SameView root middle after) : Published root id members before after where
  absent := published.absent
  elsewhere := fun path seen apart => (same path seen).trans (published.elsewhere path seen apart)
  holds := published.holds.congr fun file member => same _ (.member isId (named.safe file member))

theorem StageState.congr (staged : StageState root id members before middle)
    (isId : isGenerationId id = true) (named : NamedFiles members)
    (same : SameView root middle after) : StageState root id members before after := by
  rcases staged with unseen | published
  · exact Or.inl (unseen.trans same)
  · exact Or.inr (published.congr isId named same)

/-- The directory of the generations is not below anything that is looked at. -/
theorem ViewPath.not_above {path : Path} (seen : ViewPath root path) :
    ¬path <+: generationsRoot root := by
  intro above
  cases seen with
  | manifest => simp [manifestPath, generationsRoot] at above
  | directory | member =>
    have shorter := above.length_le
    simp [generationDirectory, generationsRoot] at shorter

/-! ### The staging directory -/

theorem isHidden_stagingName (process counter : ℕ) :
    IsHidden s!".staging-{process}-{counter}" := by
  unfold IsHidden
  simp [toString, String.toList_append]

theorem ensures_createStagingDirectory (attempts : ℕ) (same : SameView root files middle) :
    Ensures (SameView root files)
      (fun staging after => SameView root files after ∧ IsStaging root staging)
      (fun _ after => SameView root files after)
      (createStagingDirectory (generationsRoot root) attempts) middle := by
  induction attempts with
  | zero => exact same
  | succ attempts ih =>
    refine ensures_uniqueNumbers same fun numbers => ?_
    obtain ⟨process, counter⟩ := numbers
    have isStaging : IsStaging root (generationsRoot root ++ [s!".staging-{process}-{counter}"]) :=
      ⟨_, isHidden_stagingName process counter, rfl⟩
    refine ensures_perform (fun after done => ?_) fun error after failed => ?_
    · have unseen := same.trans (isStaging.sameView fun path outside =>
        Mutation.frame (Or.inl done) fun touched => outside (touched ▸ List.prefix_rfl))
      exact ⟨unseen, unseen, isStaging⟩
    · obtain rfl : after = middle := failed
      refine ⟨same, ?_⟩
      cases error with
      | alreadyExists => exact ih
      | notFound => exact same
      | failed reason => exact same

/-- Filling the staging directory leaves the files in it, and nothing else there or
elsewhere is changed. -/
theorem ensures_writeMembers {staging : Path}
    (distinct : (members.map GenerationFile.name).Nodup) (same : files.SameOutside staging middle) :
    Ensures (files.SameOutside staging)
      (fun _ after => files.SameOutside staging after ∧ Holds after staging members ∧
        ∀ name ∉ members.map GenerationFile.name,
          after (staging ++ [name]) = middle (staging ++ [name]))
      (fun _ after => files.SameOutside staging after) (writeMembers staging members) middle := by
  induction members generalizing middle with
  | nil => exact ⟨same, by simp [Holds], fun _ _ => rfl⟩
  | cons file rest ih =>
    rw [List.map_cons, List.nodup_cons] at distinct
    have inside : ∀ path, path = staging ++ [file.name] → staging <+: path := by
      rintro path rfl
      exact List.prefix_append _ _
    refine ensures_change (fun created done => ?_) fun error after failed =>
      ⟨same.step (Or.inr failed) inside, same.step (Or.inr failed) inside⟩
    have sameCreated := same.step (Or.inl done) inside
    refine ⟨sameCreated, ensures_change (fun written filled => ?_) fun error after failed =>
      ⟨sameCreated.step (Or.inr failed) inside, sameCreated.step (Or.inr failed) inside⟩⟩
    have sameWritten := sameCreated.step (Or.inl filled) inside
    refine ⟨sameWritten, ensures_change (fun synced unchanged => ?_) fun error after failed => ?_⟩
    · obtain rfl : synced = written := unchanged
      refine ⟨sameWritten, wp_mono (ih distinct.2 sameWritten) ?_ fun _ _ failed => failed⟩
      rintro _ after ⟨sameAfter, holds, others⟩
      refine ⟨sameAfter, List.forall_mem_cons.mpr ⟨?_, holds⟩, fun name notMember => ?_⟩
      · rw [others file.name distinct.1]
        obtain rfl : synced = _ := filled
        exact Function.update_self _ _ _
      · rw [List.map_cons, List.mem_cons, not_or] at notMember
        have apart : staging ++ [name] ≠ staging ++ [file.name] := by
          simpa using notMember.1
        rw [others name notMember.2, Mutation.frame (Or.inl filled) apart,
          Mutation.frame (Or.inl done) apart]
    · obtain rfl : after = written := failed
      exact ⟨sameWritten, sameWritten⟩

/-! ### Publication -/

/-- What readers see of the members that a look shows. -/
theorem readMembers_of_shownBy {view : FileSystem} {directory : Path}
    {limits : List GenerationFileLimit} {parts : List (String × Bytes)}
    (shown : files.ShownBy view) (read : readMembers view directory limits = some parts) :
    readMembers files directory limits = some parts := by
  rw [← read]
  refine readMembers_congr_of_mem fun member inLimits => ?_
  have named : member.name ∈ parts.map Prod.fst := by
    rw [names_of_readMembers read]
    exact List.mem_map_of_mem inLimits
  obtain ⟨part, inParts, sameName⟩ := List.mem_map.mp named
  have readable := stands_of_readMembers read part inParts
  rw [sameName] at readable
  rcases shown (directory ++ [member.name]) with sameEntry | unreadable
  · exact sameEntry.symm
  · rw [readable] at unreadable
    cases unreadable

variable {codec : GenerationCodec}

theorem contentsMatch_of_shownBy {view : FileSystem} {candidate : GenerationCandidate}
    {limits : List GenerationFileLimit} (shown : files.ShownBy view)
    (matched : generationContentsMatch codec view candidate limits = true) :
    generationContentsMatch codec files candidate limits = true := by
  unfold generationContentsMatch at matched ⊢
  split at matched
  case h_1 => cases matched
  case h_2 parts read =>
    rw [readMembers_of_shownBy shown read]
    exact matched

/-- The name of a match is the name of the parts that were read. -/
theorem generationIdFromParts_of_matched {candidate : GenerationCandidate}
    {limits : List GenerationFileLimit} {parts : List (String × Bytes)}
    (read : readMembers files candidate.directory limits = some parts)
    (matched : generationContentsMatch codec files candidate limits = true) :
    generationIdFromParts codec (sortedByName Prod.fst parts) = candidate.id := by
  rw [generationContentsMatch, read] at matched
  exact eq_of_beq matched

/-- A directory that matches a generation contains its files. -/
theorem holds_of_contentsMatch {directory : Path} (named : NamedFiles members)
    (unique : codec.Unique (encodeParts (partsOf members)))
    (matched : generationContentsMatch codec files ⟨generationId codec members, directory⟩
      (exactLimits members) = true) : Holds files directory members := by
  have found := matched
  unfold generationContentsMatch at found
  split at found
  case h_1 => cases found
  case h_2 parts read =>
    have pairs := forall₂_of_readMembers read
    have shorter : List.Forall₂ (fun first second => first.1 = second.1 ∧
        first.2.length ≤ second.2.length) parts (partsOf members) := by
      rw [exactLimits, List.forall₂_map_left_iff] at pairs
      rw [partsOf, List.forall₂_map_right_iff]
      exact pairs.flip.imp fun _ _ pair => ⟨pair.1, pair.2.1⟩
    have sorted : sortedByName Prod.fst parts = parts := by
      apply sortedByName_of_pairwise
      rw [← List.pairwise_map (R := (· ≤ ·)), names_of_readMembers read, exactLimits, List.map_map,
        List.pairwise_map]
      exact named.ascending
    have sameId := generationIdFromParts_of_matched read matched
    rw [sorted] at sameId
    have same := encodeParts_injective_of_le shorter
      (encodeParts_eq_of_generationId_eq unique sameId)
    intro file member
    apply stands_of_readMembers read (file.name, file.contents)
    rw [same]
    exact List.mem_map_of_mem member

/-- What became of a filled staging directory, with what is to be removed when
the generation is dropped and with what repairs it. -/
inductive StageOutcome (codec : GenerationCodec) (root : Path) (id : String)
    (members : List GenerationFile) (before after : FileSystem) :
    Bool → Option GenerationRepair → Prop
  | complete (same : SameView root before after)
      (matched : generationContentsMatch codec after ⟨id, generationDirectory root id⟩
        (exactLimits members) = true) :
      StageOutcome codec root id members before after false none
  | damaged {staging : Path} (isStaging : IsStaging root staging) (same : SameView root before after)
      (filled : Holds after staging members) :
      StageOutcome codec root id members before after false (some ⟨staging, exactLimits members⟩)
  | published (published : Published root id members before after) :
      StageOutcome codec root id members before after true none

theorem StageOutcome.state {removeOnDrop : Bool} {repair : Option GenerationRepair}
    (outcome : StageOutcome codec root id members before after removeOnDrop repair) :
    StageState root id members before after := by
  cases outcome with
  | complete same _ => exact Or.inl same
  | damaged _ same _ => exact Or.inl same
  | published published => exact Or.inr published

/-- Renaming a filled staging directory publishes its files. -/
theorem published_of_rename {staging : Path} (isStaging : IsStaging root staging)
    (absent : files (generationDirectory root id) = none) (same : SameView root files middle)
    (filled : Holds middle staging members)
    (renamed : Mutation.Done middle after (.rename staging (generationDirectory root id))) :
    Published root id members files after := by
  obtain ⟨_, rfl⟩ := renamed
  refine ⟨absent, fun path seen apart => ?_, fun file member => ?_⟩
  · rw [FileSystem.moved, if_neg apart, if_neg (isStaging.unseen seen)]
    exact same path seen
  · rw [FileSystem.moved, if_pos (List.prefix_append _ _), List.drop_left]
    exact filled file member

theorem ensures_publishStaged {staging : Path} (isId : isGenerationId id = true)
    (named : NamedFiles members) (isStaging : IsStaging root staging)
    (same : SameView root files middle) (filled : Holds middle staging members) :
    Ensures (StageState root id members files)
      (fun outcome after =>
        StageOutcome codec root id members files after outcome.1 outcome.2)
      (fun _ after => StageState root id members files after)
      (publishStaged codec root id (exactLimits members) staging) middle := by
  refine ensures_look (Or.inl same) fun view shown => ?_
  cases exists_eq : tryExists view (generationDirectory root id) with
  | error error => exact Or.inl same
  | ok isThere =>
    cases isThere with
    | true =>
      refine ensures_look (Or.inl same) fun current currentShown => ?_
      split
      case isTrue matched =>
        have complete := contentsMatch_of_shownBy currentShown matched
        have limited : SafeNames (exactLimits members) := by
          intro limit member
          obtain ⟨file, inMembers, rfl⟩ := List.mem_map.mp member
          exact named.safe file inMembers
        refine ensures_change (fun after done => ?_) fun error after failed => ?_
        · have removed := isStaging.removed (Or.inl done)
          refine ⟨Or.inl (same.trans removed), .complete (same.trans removed) ?_⟩
          rw [removed.contentsMatch isId limited, complete]
        · have removed := same.trans (isStaging.removed (Or.inr failed))
          exact ⟨Or.inl removed, Or.inl removed⟩
      -- the directory exists with other contents and is repaired later
      case isFalse => exact .damaged isStaging same filled
    | false =>
      -- nothing stood there, since the look at it was truthful or failed
      have absent : files (generationDirectory root id) = none := by
        rw [← same _ (.directory isId)]
        unfold tryExists at exists_eq
        split at exists_eq
        case h_1 => cases exists_eq
        case h_2 readable =>
          have notThere := Option.isSome_eq_false_iff.mp (Except.ok.inj exists_eq)
          rw [Option.isNone_iff_eq_none] at notThere
          rcases shown (generationDirectory root id) with sameEntry | unreadable
          · rw [← sameEntry, notThere]
          · rw [unreadable] at notThere
            cases notThere
      refine ensures_change (fun renamed done => ?_) fun error after failed => ?_
      · have published := published_of_rename isStaging absent same filled done
        refine ⟨Or.inr published, ensures_change (fun after synced => ?_) fun error after failed => ?_⟩
        · obtain rfl : after = renamed := synced
          exact ⟨Or.inr published, .published published⟩
        · obtain rfl : after = renamed := failed
          exact ⟨Or.inr published, Or.inr published⟩
      · obtain rfl : after = middle := failed
        exact ⟨Or.inl same, Or.inl same⟩

/-! ### The whole staging -/

/-- What a successful staging leaves. -/
structure Staged (codec : GenerationCodec) (root : Path) (members : List GenerationFile)
    (previous : Option String) (before after : FileSystem) (staged : StagedGeneration) : Prop where
  storeRoot : staged.storeRoot = root
  generationId : staged.generationId = generationId codec members
  notPromoted : staged.promoted = false
  previous : ∃ view, after.ShownBy view ∧ staged.previous =
    previousOf (generationCandidates codec view root) staged.generationId previous
  outcome : StageOutcome codec root staged.generationId members before after staged.removeOnDrop
    staged.repair

theorem ensures_stageInto {staging : Path} {previous : Option String}
    (isId : isGenerationId (generationId codec members) = true) (named : NamedFiles members)
    (isStaging : IsStaging root staging) (same : SameView root files middle) :
    Ensures (StageState root (generationId codec members) members files)
      (fun staged after => Staged codec root members previous files after staged)
      (fun _ after => StageState root (generationId codec members) members files after)
      (stageInto codec root members previous staging) middle := by
  have unseen {state : FileSystem} (outside : middle.SameOutside staging state) :
      StageState root (generationId codec members) members files state :=
    Or.inl (same.trans (isStaging.sameView outside))
  unfold stageInto
  refine ensures_bind (ensures_mono (ensures_writeMembers named.distinct (.refl staging middle))
    (fun _ => unseen) (fun _ _ => id) fun _ _ => unseen) ?_
  rintro _ filled ⟨outside, holds, _⟩
  refine ensures_change (fun synced done => ?_) fun error after failed => ?_
  · obtain rfl : synced = filled := done
    refine ⟨unseen outside, ensures_bind (ensures_publishStaged isId named isStaging
      (same.trans (isStaging.sameView outside)) holds) ?_⟩
    rintro ⟨removeOnDrop, repair⟩ published outcome
    exact ensures_look outcome.state fun view shown => ⟨rfl, rfl, rfl, ⟨view, shown, rfl⟩, outcome⟩
  · obtain rfl : after = filled := failed
    exact ⟨unseen outside, unseen outside⟩

/-- Sorted files of which no neighbours share their name have distinct names. -/
theorem nodup_of_sorted (ascending : members.Pairwise fun left right => left.name ≤ right.name)
    (apart : repeatsName members = false) : (members.map GenerationFile.name).Nodup := by
  induction members with
  | nil => exact List.nodup_nil
  | cons file rest ih =>
    obtain ⟨first, sorted⟩ := List.pairwise_cons.mp ascending
    cases rest with
    | nil => simp
    | cons second later =>
      have neighbours : file.name ≠ second.name ∧ repeatsName (second :: later) = false := by
        simpa [repeatsName] using apart
      rw [List.map_cons, List.nodup_cons]
      refine ⟨fun member => ?_, ih sorted neighbours.2⟩
      obtain ⟨other, inRest, sameName⟩ := List.mem_map.mp member
      have strictly : file.name < second.name :=
        lt_of_le_of_ne (first second List.mem_cons_self) neighbours.1
      rcases List.mem_cons.mp inRest with rfl | inLater
      · exact neighbours.1 sameName.symm
      · have beyond := (List.pairwise_cons.mp sorted).1 other inLater
        rw [sameName] at beyond
        exact absurd beyond (not_le.mpr strictly)

/-- Files that staging accepts have distinct safe names. -/
theorem namedFiles_of_accepted
    (accepted : (repeatsName (sortedByName GenerationFile.name members) ||
      (sortedByName GenerationFile.name members).any fun file => !isSafeFileName file.name) =
        false) : NamedFiles (sortedByName GenerationFile.name members) := by
  rw [Bool.or_eq_false_iff, List.any_eq_false] at accepted
  have ascending := pairwise_sortedByName GenerationFile.name members
  exact ⟨fun file member => by simpa using accepted.2 file member, ascending,
    nodup_of_sorted ascending accepted.1⟩

/-- Whatever fails, readers of the store see what was there, or a directory that
was absent and is complete. -/
theorem ensures_stageGeneration {previous : Option String}
    (isId : isGenerationId
      (generationId codec (sortedByName GenerationFile.name members)) = true) :
    Ensures
      (StageState root (generationId codec (sortedByName GenerationFile.name members))
        (sortedByName GenerationFile.name members) files)
      (fun staged after => NamedFiles (sortedByName GenerationFile.name members) ∧
        Staged codec root (sortedByName GenerationFile.name members) previous files after staged)
      (fun _ after => StageState root (generationId codec (sortedByName GenerationFile.name members))
        (sortedByName GenerationFile.name members) files after)
      (stageGeneration codec root members previous) files := by
  have unchanged : SameView root files files := .refl root files
  unfold stageGeneration
  by_cases isEmpty : members.isEmpty = true
  · simp only [isEmpty, if_true]
    exact Or.inl unchanged
  · simp only [isEmpty, Bool.false_eq_true, if_false]
    split
    case isTrue => exact Or.inl unchanged
    case isFalse accepted =>
      have named := namedFiles_of_accepted (Bool.eq_false_iff.mpr accepted)
      -- the directories on the way to the generations are not looked at
      have unseen : ∀ path, ViewPath root path →
          ¬(Mutation.createDirAll (generationsRoot root)).Touches path := fun path seen =>
        seen.not_above
      refine ensures_change (fun created done => ?_) fun error after failed => ?_
      · have same := unchanged.step (Or.inl done) unseen
        refine ⟨Or.inl same, ensures_bind (ensures_mono (ensures_createStagingDirectory 32 same)
          (fun _ => Or.inl) (fun _ _ => id) fun _ _ => Or.inl) ?_⟩
        rintro staging ready ⟨sameReady, isStaging⟩
        refine ensures_attempt (ensures_stageInto isId named isStaging sameReady)
          (fun staged after made => ⟨named, made⟩) fun error after state => ?_
        refine ensures_bestEffort fun last removed => ?_
        have still := state.congr isId named (isStaging.removed removed)
        exact ⟨still, still⟩
      · have same := unchanged.step (Or.inr failed) unseen
        exact ⟨Or.inl same, Or.inl same⟩

end

end Kidobo
