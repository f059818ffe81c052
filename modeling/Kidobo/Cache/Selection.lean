import Kidobo.Cache.Promotion

/-!
# The generation that a store selects

A reader takes the first generation of the manifest that it can use: every member
is there within its limit, the members have the hash that names the directory, and
the reader accepts them. A name without collision stands for one set of files, so
a directory of that name is unusable, or it is complete.

## Main definitions

* `GenerationReader`: the members of a generation, and which contents are accepted
* `GenerationReader.contents`, `GenerationReader.selected`: what is read of a store

## Main results

* `GenerationReader.contents_eq_of_unique`: a usable directory is complete
* `GenerationReader.selected_congr`, `GenerationReader.selected_switched`: when the selection stays,
  and what it may become
-/

namespace Kidobo

open Foundation FileProgram

/-- The members of the generations of a store, and which contents a reader accepts. -/
structure GenerationReader where
  limits : List GenerationFileLimit
  safeNames : SafeNames limits
  accepts : List (String × Bytes) → Bool

namespace GenerationReader

/-- The members of a generation that can be used, in the order of their names. -/
def contents (reader : GenerationReader) (codec : GenerationCodec) (files : FileSystem)
    (candidate : GenerationCandidate) : Option (List (String × Bytes)) :=
  (readMembers files candidate.directory reader.limits).bind fun parts =>
    let ordered := sortedByName Prod.fst parts
    if generationIdFromParts codec ordered == candidate.id && reader.accepts ordered then some ordered
    else none

/-- A generation that can be used, with its name. -/
def usable (reader : GenerationReader) (codec : GenerationCodec) (files : FileSystem)
    (candidate : GenerationCandidate) : Option (String × List (String × Bytes)) :=
  (reader.contents codec files candidate).map fun parts => (candidate.id, parts)

/-- What a store selects: the first generation that can be used. -/
def selected (reader : GenerationReader) (codec : GenerationCodec) (root : Path)
    (files : FileSystem) : Option (String × List (String × Bytes)) :=
  (generationCandidates codec files root).findSome? (reader.usable codec files)

/-- The manifest names the generation, and no usable one before it. -/
def Exposes (reader : GenerationReader) (codec : GenerationCodec) (root : Path)
    (files : FileSystem) (id : String) : Prop :=
  Reaches (reader.usable codec files) (fun candidate => candidate.id = id)
    (generationCandidates codec files root)

/-- A reader can use these files: it expects just them, within its limits. -/
def Takes (reader : GenerationReader) (members : List GenerationFile) : Prop :=
  (∃ ordered, ordered.Perm members ∧
    List.Forall₂ (fun (limit : GenerationFileLimit) (file : GenerationFile) =>
      limit.name = file.name ∧ file.contents.length ≤ limit.readLimit) reader.limits ordered) ∧
    reader.accepts (partsOf members) = true

end GenerationReader

/-! ### Names -/

theorem utf8_injective {left right : String} (same : utf8 left = utf8 right) : left = right := by
  apply String.toByteArray_inj.mp
  exact ByteArray.ext (Array.toList_inj.mp same)

/-- Parts of one encoding are the same, when lengths fit into words. -/
theorem encodeParts_injective_of_small {left right : List (String × Bytes)}
    (small : (encodeParts right).length < 2 ^ 64)
    (same : encodeParts left = encodeParts right) : left = right := by
  induction left generalizing right with
  | nil =>
    cases right with
    | nil => rfl
    | cons part rest =>
      have sameLength := congrArg List.length same
      simp [encodeParts, length_leBytes] at sameLength
      omega
  | cons part rest ih =>
    cases right with
    | nil =>
      have sameLength := congrArg List.length same
      simp [encodeParts, length_leBytes] at sameLength
    | cons other later =>
      obtain ⟨name, contents⟩ := part
      obtain ⟨otherName, otherContents⟩ := other
      have sameTotal := congrArg List.length same
      simp only [encodeParts_cons, List.append_assoc] at same
      simp only [encodeParts_cons, List.length_append, length_leBytes] at small sameTotal
      obtain ⟨sameNameLength, afterNameLength⟩ := List.append_inj same (by simp [length_leBytes])
      obtain ⟨sameName, afterName⟩ :=
        List.append_inj afterNameLength (leBytes_injective (by omega) (by omega) sameNameLength)
      obtain rfl := utf8_injective sameName
      obtain ⟨sameLength, afterLength⟩ := List.append_inj afterName (by simp [length_leBytes])
      obtain ⟨sameContents, sameLater⟩ :=
        List.append_inj afterLength (leBytes_injective (by omega) (by omega) sameLength)
      rw [show contents = otherContents from sameContents, ih (by omega) sameLater]

/-- The name of these files stands for no others. -/
structure GenerationCodec.Identifies (codec : GenerationCodec) (members : List GenerationFile) :
    Prop where
  unique : codec.Unique (encodeParts (partsOf members))
  small : (encodeParts (partsOf members)).length < 2 ^ 64

theorem GenerationCodec.Identifies.parts_eq {codec : GenerationCodec}
    {members : List GenerationFile} {parts : List (String × Bytes)}
    (identifies : codec.Identifies members)
    (sameId : generationIdFromParts codec parts = generationId codec members) :
    parts = partsOf members :=
  encodeParts_injective_of_small identifies.small
    (encodeParts_eq_of_generationId_eq identifies.unique sameId)

namespace GenerationReader

section Contents

variable {reader : GenerationReader} {codec : GenerationCodec} {root : Path}
  {files before after : FileSystem} {candidate : GenerationCandidate}
  {members : List GenerationFile} {parts : List (String × Bytes)}

theorem contents_eq_some_iff :
    reader.contents codec files candidate = some parts ↔
      ∃ read, readMembers files candidate.directory reader.limits = some read ∧
        sortedByName Prod.fst read = parts ∧ generationIdFromParts codec parts = candidate.id ∧
        reader.accepts parts = true := by
  unfold contents
  simp only [Option.bind_eq_some_iff, Option.ite_none_right_eq_some, Bool.and_eq_true, beq_iff_eq,
    Option.some.injEq]
  constructor
  · rintro ⟨read, isRead, ⟨sameId, accepted⟩, rfl⟩
    exact ⟨read, isRead, rfl, sameId, accepted⟩
  · rintro ⟨read, isRead, rfl, sameId, accepted⟩
    exact ⟨read, isRead, ⟨sameId, accepted⟩, rfl⟩

/-- Reading a generation looks at its members only. -/
theorem contents_congr
    (same : ∀ name, isSafeFileName name = true →
      after (candidate.directory ++ [name]) = before (candidate.directory ++ [name])) :
    reader.contents codec after candidate = reader.contents codec before candidate := by
  unfold contents
  rw [readMembers_congr_of_mem fun member inLimits => same _ (reader.safeNames member inLimits)]

/-- A directory that can be used and has the name of these files contains just them. -/
theorem contents_eq_of_unique (identifies : codec.Identifies members)
    (named : candidate.id = generationId codec members)
    (usable : reader.contents codec files candidate = some parts) : parts = partsOf members := by
  obtain ⟨_, _, _, sameId, _⟩ := contents_eq_some_iff.mp usable
  exact identifies.parts_eq (sameId.trans named)

/-- The members of a directory that can be used stand in it. -/
theorem holds_of_contents
    (usable : reader.contents codec files candidate = some (partsOf members)) :
    Holds files candidate.directory members := by
  obtain ⟨read, isRead, sorted, _⟩ := contents_eq_some_iff.mp usable
  intro file member
  apply stands_of_readMembers isRead (file.name, file.contents)
  apply (List.mergeSort_perm read _).mem_iff.mp
  rw [show read.mergeSort _ = partsOf members from sorted]
  exact List.mem_map_of_mem member

/-- The parts of files in any order, in the order of their names. -/
theorem sortedByName_partsOf {ordered : List GenerationFile} (named : NamedFiles members)
    (perm : ordered.Perm members) : sortedByName Prod.fst (partsOf ordered) = partsOf members := by
  have partsPerm : (partsOf ordered).Perm (partsOf members) := perm.map _
  have sortedPerm : (sortedByName Prod.fst (partsOf ordered)).Perm (partsOf members) :=
    (List.mergeSort_perm _ _).trans partsPerm
  apply sortedPerm.eq_of_pairwise _ (pairwise_sortedByName Prod.fst _)
  · rw [partsOf, List.pairwise_map]
    exact named.ascending
  · intro left right inLeft inRight leftFirst rightFirst
    have distinct : ((partsOf members).map Prod.fst).Nodup := by
      rw [partsOf, List.map_map]
      exact named.distinct
    exact List.inj_on_of_nodup_map distinct (sortedPerm.mem_iff.mp inLeft) inRight
      (le_antisymm leftFirst rightFirst)

/-- A complete directory can be used when a reader can use its files. -/
theorem contents_of_holds (takes : reader.Takes members) (named : NamedFiles members)
    (holds : Holds files candidate.directory members)
    (isName : candidate.id = generationId codec members) :
    reader.contents codec files candidate = some (partsOf members) := by
  obtain ⟨⟨ordered, perm, fits⟩, accepted⟩ := takes
  have orderedHolds : Holds files candidate.directory ordered := fun file member =>
    holds file (perm.mem_iff.mp member)
  exact contents_eq_some_iff.mpr ⟨_, readMembers_of_holds orderedHolds fits,
    sortedByName_partsOf named perm, isName.symm, accepted⟩

end Contents

/-! ### What changes the selection -/

section Selected

variable {reader : GenerationReader} {codec : GenerationCodec} {root : Path}
  {before after : FileSystem} {members : List GenerationFile} {staged : StagedGeneration}
  {id : String} {parts : List (String × Bytes)}

theorem selected_eq_some (isSelected : reader.selected codec root before = some (id, parts)) :
    ⟨id, generationDirectory root id⟩ ∈ generationCandidates codec before root ∧
      reader.contents codec before ⟨id, generationDirectory root id⟩ = some parts ∧
      reader.Exposes codec root before id := by
  obtain ⟨front, candidate, back, split, isUsable, unusable⟩ :=
    List.findSome?_eq_some_iff.mp isSelected
  obtain ⟨_, isContents, same⟩ := Option.map_eq_some_iff.mp isUsable
  obtain ⟨rfl, rfl⟩ := Prod.mk.inj same
  have member : candidate ∈ generationCandidates codec before root := by simp [split]
  have isCandidate : candidate = ⟨candidate.id, generationDirectory root candidate.id⟩ := by
    rw [← directory_of_mem_candidates member]
  rw [← isCandidate]
  exact ⟨member, isContents, front, candidate, back, split, rfl, unusable⟩

/-- Candidates with unchanged members can be used as before. -/
theorem usable_congr {candidate : GenerationCandidate}
    (same : ∀ name, isSafeFileName name = true →
      after (candidate.directory ++ [name]) = before (candidate.directory ++ [name])) :
    reader.usable codec after candidate = reader.usable codec before candidate := by
  rw [usable, usable, contents_congr same]

theorem usable_of_sameSelection (same : SameSelection codec root before after) :
    ∀ candidate ∈ generationCandidates codec before root,
      reader.usable codec after candidate = reader.usable codec before candidate :=
  fun _ member => usable_congr fun name _ => same _ (not_unselected_member name member)

theorem selected_of_sameSelection (same : SameSelection codec root before after) :
    reader.selected codec root after = reader.selected codec root before := by
  unfold selected
  rw [same.generationCandidates]
  exact findSome?_congr (usable_of_sameSelection same)

theorem exposes_of_sameSelection (same : SameSelection codec root before after) :
    reader.Exposes codec root after id ↔ reader.Exposes codec root before id := by
  unfold Exposes
  rw [same.generationCandidates]
  exact reaches_congr fun candidate member _ => usable_of_sameSelection same candidate member

/-- Readers see no difference, except in the directory of this generation. -/
def SameElsewhere (root : Path) (id : String) (before after : FileSystem) : Prop :=
  ∀ path, ViewPath root path → ¬generationDirectory root id <+: path → after path = before path

theorem SameElsewhere.candidates (same : SameElsewhere root id before after) :
    generationCandidates codec after root = generationCandidates codec before root :=
  generationCandidates_congr (same _ .manifest not_directory_prefix_manifest)

theorem SameElsewhere.usable (same : SameElsewhere root id before after)
    {candidate : GenerationCandidate}
    (member : candidate ∈ generationCandidates codec before root) (other : candidate.id ≠ id) :
    reader.usable codec after candidate = reader.usable codec before candidate := by
  apply usable_congr
  intro name isSafe
  rw [directory_of_mem_candidates member]
  apply same _ (.member (isGenerationId_of_mem_candidates member) isSafe)
  exact fun below => other (eq_of_same_directory below).symm

theorem exposes_of_sameElsewhere (same : SameElsewhere root id before after) :
    reader.Exposes codec root after id ↔ reader.Exposes codec root before id := by
  unfold Exposes
  rw [same.candidates]
  exact reaches_congr fun candidate member other => same.usable member other

/-- A directory that no reader gets to does not matter. -/
theorem selected_of_hidden (same : SameElsewhere root id before after)
    (hidden : ¬reader.Exposes codec root before id) :
    reader.selected codec root after = reader.selected codec root before := by
  unfold selected
  rw [same.candidates]
  exact findSome?_eq_of_not_reached (fun candidate member other => same.usable member other) hidden

theorem selected_of_sameView (same : SameView root before after) :
    reader.selected codec root after = reader.selected codec root before := by
  unfold selected
  rw [same.candidates]
  apply findSome?_congr
  intro candidate member
  apply usable_congr
  intro name isSafe
  rw [directory_of_mem_candidates member]
  exact same _ (.member (isGenerationId_of_mem_candidates member) isSafe)

/-- A usable directory stays usable when each of its files is as it was or as these are. -/
theorem contents_of_kept {candidate : GenerationCandidate}
    (usable : reader.contents codec before candidate = some (partsOf members))
    (kept : ∀ file ∈ members,
      after (candidate.directory ++ [file.name]) = before (candidate.directory ++ [file.name]) ∨
        after (candidate.directory ++ [file.name]) = some (.file file.contents)) :
    reader.contents codec after candidate = some (partsOf members) := by
  have holds := holds_of_contents usable
  obtain ⟨read, isRead, sorted, rest⟩ := contents_eq_some_iff.mp usable
  refine contents_eq_some_iff.mpr ⟨read, ?_, sorted, rest⟩
  rw [← isRead]
  apply readMembers_congr_of_mem
  intro limit inLimits
  have named : limit.name ∈ read.map Prod.fst := by
    rw [names_of_readMembers isRead]
    exact List.mem_map_of_mem inLimits
  obtain ⟨part, inParts, sameName⟩ := List.mem_map.mp named
  have inMembers : part ∈ partsOf members := by
    rw [← sorted]
    exact (List.mergeSort_perm read _).mem_iff.mpr inParts
  obtain ⟨file, member, rfl⟩ := List.mem_map.mp inMembers
  rw [← sameName]
  rcases kept file member with same | written
  · exact same
  · rw [written, holds file member]

/-- While a generation is repaired, the selection is the old one or the staged one. -/
theorem selected_of_repairing (identifies : codec.Identifies members)
    (isName : id = generationId codec members) (state : Repairing root id members before after) :
    reader.selected codec root after = reader.selected codec root before ∨
      reader.selected codec root after = some (id, partsOf members) := by
  have same : SameElsewhere root id before after := state.elsewhere
  unfold selected
  rw [same.candidates]
  apply findSome?_eq_or_of_agree fun candidate member other => same.usable member other
  rintro candidate member rfl
  cases isUsable : reader.contents codec after candidate with
  | some parts =>
    right
    rw [usable, isUsable, contents_eq_of_unique identifies isName isUsable]
    rfl
  | none =>
    left
    cases wasUsable : reader.contents codec before candidate with
    | none => rw [usable, usable, isUsable, wasUsable]
    | some parts =>
      obtain rfl := contents_eq_of_unique identifies isName wasUsable
      have still : reader.contents codec after candidate = some (partsOf members) := by
        apply contents_of_kept wasUsable
        intro file inMembers
        rw [directory_of_mem_candidates member]
        exact state.files file inMembers
      rw [still] at isUsable
      cases isUsable

end Selected

end GenerationReader

end Kidobo
