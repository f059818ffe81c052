import Mathlib
import Kidobo.Foundation.FileSystem

/-!
# The cache generation store

A store keeps complete sets of files, the generations, each in a directory named
by the hash of its contents. A manifest names the current generation and the
previous one. A new generation is staged beside them and selected by replacing
the manifest; a generation that is there but damaged is repaired file by file
before it is selected again.

## Main definitions

* `generationCandidates`, `generationContentsMatch`: reading a store
* `stageGeneration`, `promote`, `dropStaged`: one generation on its way
* `cleanupUnselectedGenerations`, `pruneGenerations`: removing the others
-/

namespace Kidobo

open Foundation FileProgram

/-! ### Hashes -/

/-- The bytes of a text. -/
def utf8 (text : String) : Bytes := text.toUTF8.data.toList

/-- `lower_hex_nibble`. -/
def lowerHexNibble (value : ℕ) : Char :=
  if value < 10 then Char.ofNat ('0'.toNat + value) else Char.ofNat ('a'.toNat + (value - 10))

/-- `hex_lower`. -/
def hexLower (bytes : Bytes) : String :=
  String.ofList (bytes.flatMap fun byte =>
    [lowerHexNibble (byte.toNat / 16), lowerHexNibble (byte.toNat % 16)])

/-- `usize::to_le_bytes` on a 64-bit target. -/
def leBytes (length : ℕ) : Bytes :=
  (List.range 8).map fun index => UInt8.ofNat (length / 256 ^ index)

/-! ### Manifests -/

/-- `CACHE_SCHEMA_VERSION`. -/
def cacheSchemaVersion : ℕ := 2

/-- `MANIFEST_READ_LIMIT`. -/
def manifestReadLimit : ℕ := 16 * 1024

/-- The generations that a store has selected. -/
structure GenerationManifest where
  version : ℕ
  current : String
  previous : Option String
  deriving DecidableEq

/-- What the hash and JSON libraries contribute to a store. -/
structure GenerationCodec where
  sha256 : Bytes → Bytes
  parseManifest : Bytes → Option GenerationManifest
  renderManifest : GenerationManifest → Bytes

/-- The manifest of a store. -/
def manifestPath (root : Path) : Path := root ++ ["current.json"]

/-- The directory of the generations. -/
def generationsRoot (root : Path) : Path := root ++ ["generations"]

/-- The directory of one generation. -/
def generationDirectory (root : Path) (id : String) : Path := generationsRoot root ++ [id]

/-- `is_generation_id`. -/
def isGenerationId (value : String) : Bool :=
  value.length == 64 &&
    value.toList.all fun char => ('0' ≤ char && char ≤ '9') || ('a' ≤ char && char ≤ 'f')

/-- `is_safe_file_name`. -/
def isSafeFileName (value : String) : Bool :=
  !value.isEmpty && value.toList.head? != some '.' &&
    value.toList.all fun char => char.isAlphanum || char == '.' || char == '_' || char == '-'

/-- A generation that the manifest names. -/
structure GenerationCandidate where
  id : String
  directory : Path
  deriving DecidableEq

/-- A file of a generation. -/
structure GenerationFile where
  name : String
  contents : Bytes
  deriving DecidableEq

/-- A file of a generation and how much of it may be read. -/
structure GenerationFileLimit where
  name : String
  readLimit : ℕ
  deriving DecidableEq

section Codec

variable (codec : GenerationCodec)

/-- `sha256_hex`. -/
def GenerationCodec.sha256Hex (bytes : Bytes) : String := hexLower (codec.sha256 bytes)

/-- What is hashed of the files of a generation. -/
def encodeParts (parts : List (String × Bytes)) : Bytes :=
  parts.flatMap fun (name, contents) =>
    leBytes (utf8 name).length ++ utf8 name ++ (leBytes contents.length ++ contents)

/-- `generation_id_from_parts`. -/
def generationIdFromParts (parts : List (String × Bytes)) : String :=
  codec.sha256Hex (encodeParts parts)

/-- `generation_id`. -/
def generationId (files : List GenerationFile) : String :=
  generationIdFromParts codec (files.map fun file => (file.name, file.contents))

/-- The manifest that a store selects its generations by. -/
def readManifest (files : FileSystem) (root : Path) : Option GenerationManifest :=
  match readBytesWithLimit files (manifestPath root) manifestReadLimit with
  | .error _ => none
  | .ok bytes =>
    match codec.parseManifest bytes with
    | none => none
    | some manifest =>
      if manifest.version ≠ cacheSchemaVersion then none
      else if !isGenerationId manifest.current ||
          manifest.previous.any fun previous =>
            !isGenerationId previous || previous == manifest.current then none
      else some manifest

/-- The generations that a manifest names, the current one first. -/
def GenerationManifest.candidates (manifest : GenerationManifest) (root : Path) :
    List GenerationCandidate :=
  (manifest.current :: manifest.previous.toList).map fun id => ⟨id, generationDirectory root id⟩

/-- `generation_candidates`. -/
def generationCandidates (files : FileSystem) (root : Path) : List GenerationCandidate :=
  match readManifest codec files root with
  | none => []
  | some manifest => manifest.candidates root

/-- The members of a generation, when all of them can be read. -/
def readMembers (files : FileSystem) (directory : Path) :
    List GenerationFileLimit → Option (List (String × Bytes))
  | [] => some []
  | member :: rest => do
    let contents ← (readBytesWithLimit files (directory ++ [member.name]) member.readLimit).toOption
    let later ← readMembers files directory rest
    return (member.name, contents) :: later

/-- Members in the order of their names. -/
def sortedByName {α : Type} (name : α → String) (items : List α) : List α :=
  items.mergeSort fun left right => decide (name left ≤ name right)

/-- `generation_contents_match`. -/
def generationContentsMatch (files : FileSystem) (candidate : GenerationCandidate)
    (limits : List GenerationFileLimit) : Bool :=
  match readMembers files candidate.directory limits with
  | none => false
  | some contents => generationIdFromParts codec (sortedByName Prod.fst contents) == candidate.id

end Codec

/-! ### Atomic writes -/

/-- Fill a temporary file and put it in the place of another one. -/
def publishThrough (temporary path : Path) (contents : Bytes) (hasPermissions : Bool) :
    FileProgram Unit := do
  if hasPermissions then change (.setPermissions temporary)
  change (.writeAll temporary contents)
  change (.syncFile temporary)
  change (.rename temporary path)
  change (.syncDirectory path.dropLast)

/-- `temp_write_path`. -/
def tempWritePath (path : Path) (process counter : ℕ) : Path :=
  let fileName := path.getLast?.getD "kidobo"
  path.dropLast ++ [s!".{fileName}.kidobo-tmp-{process}-{counter}"]

/-- The attempts to find an unused temporary file. -/
def writeThroughTemporary (path : Path) (contents : Bytes) (hasPermissions : Bool) :
    ℕ → FileProgram Unit
  | 0 => throw .alreadyExists
  | attempts + 1 => do
    let (process, counter) ← perform .uniqueNumbers
    let temporary := tempWritePath path process counter
    match ← perform (.change (.createFile temporary)) with
    | .ok _ => do
      match ← (publishThrough temporary path contents hasPermissions).attempt with
      | .ok _ => return ()
      | .error error => do
        bestEffort (change (.removeFile temporary))
        throw error
    | .error .alreadyExists => writeThroughTemporary path contents hasPermissions attempts
    | .error error => throw error

/-- `write_bytes_atomic`. -/
def writeBytesAtomic (path : Path) (contents : Bytes) : FileProgram Unit := do
  let files ← look
  match files path with
  | some .unreadable => throw (.failed "unreadable")
  | existing => writeThroughTemporary path contents existing.isSome 16

/-! ### Removing generations -/

/-- Remove the listed directories that are not kept, as far as possible. -/
def pruneEntries (directory : Path) (keeps : String → Bool) : List String → FileProgram Unit
  | [] => return ()
  | name :: rest => do
    if keeps name then pruneEntries directory keeps rest
    else
      let files ← look
      if files (directory ++ [name]) = some .directory then
        bestEffort (change (.removeDirAll (directory ++ [name])))
      pruneEntries directory keeps rest

/-- Remove the directories of a directory that are not kept. -/
def pruneDirectory (directory : Path) (keeps : String → Bool) : FileProgram Unit := do
  match ← perform (.readDir directory) with
  | .error _ => return ()
  | .ok names => do
    pruneEntries directory keeps names
    bestEffort (change (.syncDirectory directory))

/-- Whether a manifest names the generation. -/
def GenerationManifest.keeps (manifest : GenerationManifest) (name : String) : Bool :=
  name == manifest.current || manifest.previous == some name

/-- `prune_generations`. -/
def pruneGenerations (root : Path) (manifest : GenerationManifest) : FileProgram Unit :=
  pruneDirectory (generationsRoot root) manifest.keeps

section Codec

variable (codec : GenerationCodec)

/-- `cleanup_unselected_generations`. -/
def cleanupUnselectedGenerations (root : Path) : FileProgram Unit := do
  match readManifest codec (← look) root with
  | some manifest => pruneGenerations root manifest
  | none => do
    let files ← look
    -- without a manifest nothing is selected; an unreadable one keeps everything
    if files (manifestPath root) = none then pruneDirectory (generationsRoot root) fun _ => false
    else return ()

/-! ### Staging -/

/-- Staging data that repairs a damaged generation when it is promoted. -/
structure GenerationRepair where
  stagingDirectory : Path
  files : List GenerationFileLimit

/-- A generation admitted before its promotion. -/
structure StagedGeneration where
  storeRoot : Path
  generationId : String
  previous : Option String
  removeOnDrop : Bool
  promoted : Bool
  repair : Option GenerationRepair

/-- `create_staging_directory`, with the attempts that are left. -/
def createStagingDirectory (generations : Path) : ℕ → FileProgram Path
  | 0 => throw .alreadyExists
  | attempts + 1 => do
    let (process, counter) ← perform .uniqueNumbers
    let path := generations ++ [s!".staging-{process}-{counter}"]
    match ← perform (.change (.createDir path)) with
    | .ok _ => return path
    | .error .alreadyExists => createStagingDirectory generations attempts
    | .error error => throw error

/-- Write the files of a generation into its staging directory. -/
def writeMembers (staging : Path) : List GenerationFile → FileProgram Unit
  | [] => return ()
  | file :: rest => do
    let path := staging ++ [file.name]
    change (.createFile path)
    change (.writeAll path file.contents)
    change (.syncFile path)
    writeMembers staging rest

/-- Put a filled staging directory in the place of its generation, unless one is
there: a complete one is used as it is, a damaged one waits for its repair. -/
def publishStaged (root : Path) (id : String) (limits : List GenerationFileLimit)
    (staging : Path) : FileProgram (Bool × Option GenerationRepair) := do
  let directory := generationDirectory root id
  let files ← look
  let isThere ← Program.ofExcept (tryExists files directory)
  if isThere then
    let current ← look
    if generationContentsMatch codec current ⟨id, directory⟩ limits then
      change (.removeDirAll staging)
      return (false, none)
    else return (false, some ⟨staging, limits⟩)
  else
    -- published at once: a manifest that already names this id selects it without a promotion
    change (.rename staging directory)
    change (.syncDirectory (generationsRoot root))
    return (true, none)

/-- The generation that the manifest shall name behind the staged one. -/
def previousOf (candidates : List GenerationCandidate) (id : String) (previous : Option String) :
    Option String :=
  (if previous = some id then candidates[1]?.map GenerationCandidate.id else previous).filter
    fun candidate => isGenerationId candidate && candidate != id

/-- Fill the staging directory and publish it. -/
def stageInto (root : Path) (ordered : List GenerationFile) (previous : Option String)
    (staging : Path) : FileProgram StagedGeneration := do
  let id := generationId codec ordered
  writeMembers staging ordered
  change (.syncDirectory staging)
  let limits := ordered.map fun file => GenerationFileLimit.mk file.name file.contents.length
  let (removeOnDrop, repair) ← publishStaged codec root id limits staging
  -- the candidates are those after publication, which may include the new directory
  let files ← look
  return {
    storeRoot := root
    generationId := id
    previous := previousOf (generationCandidates codec files root) id previous
    removeOnDrop := removeOnDrop
    promoted := false
    repair := repair }

/-- Whether two neighbours of an ordered list have the same name. -/
def repeatsName (ordered : List GenerationFile) : Bool :=
  (ordered.zip ordered.tail).any fun (left, right) => left.name == right.name

/-- `stage_generation`. -/
def stageGeneration (root : Path) (files : List GenerationFile) (previous : Option String) :
    FileProgram StagedGeneration := do
  let ordered := sortedByName GenerationFile.name files
  if files.isEmpty then throw (.failed "cache generation contains no files")
  else if repeatsName ordered || ordered.any fun file => !isSafeFileName file.name then
    throw (.failed "cache generation file names must be unique safe basenames")
  else
    change (.createDirAll (generationsRoot root))
    let staging ← createStagingDirectory (generationsRoot root) 32
    match ← (stageInto codec root ordered previous staging).attempt with
    | .ok staged => return staged
    -- a published directory stays: only the staging directory is cleared
    | .error error => do
      bestEffort (change (.removeDirAll staging))
      throw error

/-! ### Promotion -/

/-- Bring the members of a damaged generation to their staged contents. -/
def repairMembers (staging destination : Path) : List GenerationFileLimit → FileProgram Unit
  | [] => return ()
  | member :: rest => do
    let staged ← look
    let contents ← Program.ofExcept
      (readBytesWithLimit staged (staging ++ [member.name]) member.readLimit)
    let target := destination ++ [member.name]
    let current ← look
    if (readBytesWithLimit current target member.readLimit).toOption ≠ some contents then
      writeBytesAtomic target contents
    repairMembers staging destination rest

/-- Repair the damaged directory of a generation and verify it. -/
def repairGeneration (directory : Path) (id : String) (repair : GenerationRepair) :
    FileProgram Unit := do
  repairMembers repair.stagingDirectory directory repair.files
  change (.syncDirectory directory)
  let files ← look
  if generationContentsMatch codec files ⟨id, directory⟩ repair.files then return ()
  else throw (.failed "repaired cache generation failed verification")

/-- The manifest that selects a staged generation. -/
def StagedGeneration.manifest (staged : StagedGeneration) : GenerationManifest :=
  ⟨cacheSchemaVersion, staged.generationId, staged.previous⟩

/-- Whether the store already selects what a manifest says. -/
def GenerationManifest.isSelected (manifest : GenerationManifest)
    (candidates : List GenerationCandidate) : Bool :=
  candidates.head?.any (fun candidate => candidate.id == manifest.current) &&
    candidates[1]?.map GenerationCandidate.id == manifest.previous

/-- `promote_with_hook`. A failure leaves the staged generation as it was. -/
def promoteStaged (staged : StagedGeneration) : FileProgram StagedGeneration := do
  match staged.repair with
  | none => pure ()
  | some repair =>
    repairGeneration codec (generationDirectory staged.storeRoot staged.generationId)
      staged.generationId repair
  let promoted := { staged with promoted := true, removeOnDrop := false }
  -- nothing is written when the store selects this generation already
  let files ← look
  if staged.manifest.isSelected (generationCandidates codec files staged.storeRoot) then
    return promoted
  else
    writeBytesAtomic (manifestPath staged.storeRoot) (codec.renderManifest staged.manifest)
    pruneGenerations staged.storeRoot staged.manifest
    return promoted

/-- `drop`. -/
def dropStaged (staged : StagedGeneration) : FileProgram Unit := do
  match staged.repair with
  | none => pure ()
  | some repair => bestEffort (change (.removeDirAll repair.stagingDirectory))
  if !staged.promoted && staged.removeOnDrop then
    bestEffort (change (.removeDirAll
      (generationDirectory staged.storeRoot staged.generationId)))
  else return ()

/-- `promote`, which drops the staged generation at its end. -/
def promote (staged : StagedGeneration) : FileProgram String := do
  match ← (promoteStaged codec staged).attempt with
  | .ok promoted => do
    dropStaged promoted
    return staged.generationId
  -- dropping the value removes a directory that it published and did not promote
  | .error error => do
    dropStaged staged
    throw error

end Codec

end Kidobo
