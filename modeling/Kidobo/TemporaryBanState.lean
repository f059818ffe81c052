import Kidobo.Foundation.Toml
import Kidobo.Network.RoundTrip
import Kidobo.TemporaryBans

/-!
# The temporary-ban file

Version-one state is a document with one table for each network and one for each
ASN. Reading checks every record and refuses an identity that another record of
the document names as well; writing refuses a state that reading would refuse.

## Main definitions

* `parseTemporaryBans`, `serializeTemporaryBans`: the state of a text and back
* `TemporaryBans.Storable`: the states that can be written
* `namedNetworks`, `namedAsns`: the identities that a document's records name

## Main results

* `parseTemporaryBans_eq_ok_iff`: what an accepted text says
* `temporaryBans_codec`: writing and reading fit each other
* `loadState_contentsToSave`: a saved file is loaded again
-/

namespace Kidobo

open Foundation

/-! ### Errors -/

/-- How persistent state violates its schema or identity constraints. -/
inductive StateFault where
  /-- The library's message for a text that is no document of this shape. -/
  | document (message : String)
  | unsupportedVersion (version : ℕ)
  | invalidNetwork (cidr : String)
  | duplicateNetwork (target : CanonicalCidr)
  | zeroAsn
  | duplicateAsn (asn : ℕ)

/-- The diagnostic of a fault; a refused spelling is quoted. -/
def StateFault.reason (quoted : String → String) : StateFault → String
  | document message => message
  | unsupportedVersion version => s!"unsupported version {version}"
  | invalidNetwork cidr => s!"invalid IP/CIDR identity {quoted cidr}"
  | duplicateNetwork target => s!"duplicate IP/CIDR identity {target.display}"
  | zeroAsn => "ASN identity must be positive"
  | duplicateAsn asn => s!"duplicate ASN identity AS{asn}"

/-- Invalid deadline or persistent temporary-ban state. -/
inductive TemporaryBanError where
  | invalidExpiry
  | invalidState (fault : StateFault)

/-- The message of an error. -/
def TemporaryBanError.message (quoted : String → String) : TemporaryBanError → String
  | invalidExpiry =>
    "temporary ban expiry must be a positive Unix timestamp within the signed 64-bit range"
  | invalidState fault => s!"invalid temporary ban state: {fault.reason quoted}"

/-! ### Checks -/

/-- The deadlines that the persistent format represents. -/
def IsDeadline (expiry : ℕ) : Prop := 1 ≤ expiry ∧ expiry ≤ maxExpiry

instance : DecidablePred IsDeadline := fun _ => inferInstanceAs (Decidable (_ ∧ _))

/-- `validate_expiry`. -/
def validateExpiry (expiry : ℕ) : Except TemporaryBanError ℤ :=
  if expiry ≤ maxExpiry ∧ 0 < expiry then .ok expiry else .error .invalidExpiry

/-- `validate_asn`. -/
def validateAsn (asn : ℕ) : Except TemporaryBanError Unit :=
  if asn = 0 then .error (.invalidState .zeroAsn) else .ok ()

theorem validateExpiry_eq_ok_iff {expiry : ℕ} {stored : ℤ} :
    validateExpiry expiry = .ok stored ↔ IsDeadline expiry ∧ stored = expiry := by
  unfold validateExpiry IsDeadline
  split
  case isTrue valid =>
    constructor
    · intro same
      exact ⟨⟨valid.2, valid.1⟩, (Except.ok.inj same).symm⟩
    · rintro ⟨_, rfl⟩
      rfl
  case isFalse invalid =>
    constructor
    · intro failed
      cases failed
    · rintro ⟨⟨positive, bounded⟩, _⟩
      exact absurd ⟨bounded, positive⟩ invalid

theorem validateAsn_eq_ok_iff {asn : ℕ} {done : Unit} : validateAsn asn = .ok done ↔ asn ≠ 0 := by
  unfold validateAsn
  split
  case isTrue zero => simp [zero]
  case isFalse positive => simpa using positive

/-! ### Stored records -/

/-- A network's record as it stands in the file. -/
structure StoredIp where
  cidr : String
  expiresAt : ℕ

/-- An ASN's record as it stands in the file. -/
structure StoredAsn where
  asn : ℕ
  expiresAt : ℕ

/-- The records of a whole file. -/
structure StoredBans where
  version : ℕ
  ips : List StoredIp
  asns : List StoredAsn

/-- Decode a network's record. -/
def StoredIp.decode (record : Toml) : Option StoredIp :=
  match record.fields ["cidr", "expires_at"] with
  | some [cidr, expiresAt] => do return ⟨← cidr.asString, ← expiresAt.asUnsigned 64⟩
  | _ => none

/-- Decode an ASN's record. -/
def StoredAsn.decode (record : Toml) : Option StoredAsn :=
  match record.fields ["asn", "expires_at"] with
  | some [asn, expiresAt] => do return ⟨← asn.asUnsigned 32, ← expiresAt.asUnsigned 64⟩
  | _ => none

/-- Decode a list of records; a missing list is empty. -/
def decodeRecords {α : Type} (decode : Toml → Option α) : Option Toml → Option (List α)
  | none => some []
  | some list => do (← list.asList).mapM decode

/-- Decode a whole file. -/
def StoredBans.decode : Toml → Option StoredBans
  | .table entries =>
    if ∀ entry ∈ entries, entry.1 ∈ ["version", "ips", "asns"] then do
      let version ← (← entries.lookup "version").asUnsigned 32
      let ips ← decodeRecords StoredIp.decode (entries.lookup "ips")
      let asns ← decodeRecords StoredAsn.decode (entries.lookup "asns")
      return ⟨version, ips, asns⟩
    else none
  | _ => none

/-! ### Reading -/

/-- Take one network's record into the state. -/
def insertIp (ips : SortedMap CanonicalCidr ℕ) (record : StoredIp) :
    Except TemporaryBanError (SortedMap CanonicalCidr ℕ) := do
  let _ ← validateExpiry record.expiresAt
  match parseIpCidrStrict record.cidr.toList with
  | none => .error (.invalidState (.invalidNetwork record.cidr))
  | some target =>
    if (ips.lookup target).isSome then .error (.invalidState (.duplicateNetwork target))
    else return ips.insert target record.expiresAt

/-- Take one ASN's record into the state. -/
def insertAsn (asns : SortedMap ℕ ℕ) (record : StoredAsn) :
    Except TemporaryBanError (SortedMap ℕ ℕ) := do
  let _ ← validateExpiry record.expiresAt
  validateAsn record.asn
  if (asns.lookup record.asn).isSome then .error (.invalidState (.duplicateAsn record.asn))
  else return asns.insert record.asn record.expiresAt

/-- The records of a text, or the library's message. -/
def readStoredBans (library : TomlLibrary) (contents : String) :
    Except TemporaryBanError StoredBans :=
  match library.parse contents with
  | .error message => .error (.invalidState (.document message))
  | .ok document =>
    match StoredBans.decode document with
    | none => .error (.invalidState (.document (library.mismatch contents)))
    | some stored => .ok stored

/-- `parse_temporary_bans`: the state of a version-one text. -/
def parseTemporaryBans (library : TomlLibrary) (contents : String) :
    Except TemporaryBanError TemporaryBans := do
  let stored ← readStoredBans library contents
  if stored.version ≠ 1 then .error (.invalidState (.unsupportedVersion stored.version))
  else
    let ips ← stored.ips.foldlM insertIp .empty
    let asns ← stored.asns.foldlM insertAsn .empty
    return ⟨ips, asns⟩

/-! ### Writing -/

/-- The table of one network. -/
def storedIp (entry : CanonicalCidr × ℕ) : Except TemporaryBanError Toml := do
  let expiresAt ← validateExpiry entry.2
  return .table [("cidr", .string entry.1.display), ("expires_at", .integer expiresAt)]

/-- The table of one ASN. -/
def storedAsn (entry : ℕ × ℕ) : Except TemporaryBanError Toml := do
  validateAsn entry.1
  let expiresAt ← validateExpiry entry.2
  return .table [("asn", .integer entry.1), ("expires_at", .integer expiresAt)]

/-- A list of tables under its name, left out when there are none. -/
def storedRecords {α : Type} (name : String) (store : α → Except TemporaryBanError Toml)
    (entries : List α) : Except TemporaryBanError (List (String × Toml)) :=
  if entries.isEmpty then return [] else do return [(name, .array (← entries.mapM store))]

/-- The document of a state. -/
def temporaryBansDocument (state : TemporaryBans) : Except TemporaryBanError Toml := do
  let ips ← storedRecords "ips" storedIp state.ips.entries
  let asns ← storedRecords "asns" storedAsn state.asns.entries
  return .table (("version", .integer 1) :: (ips ++ asns))

/-- `serialize_temporary_bans`: the version-one text of a state. -/
def serializeTemporaryBans (library : TomlLibrary) (state : TemporaryBans) :
    Except TemporaryBanError String := do
  let document ← temporaryBansDocument state
  return library.print document

/-! ### What an accepted text says -/

/-- The entry that a network's record stands for. -/
def StoredIp.entry (record : StoredIp) : Option (CanonicalCidr × ℕ) :=
  if IsDeadline record.expiresAt then
    (parseIpCidrStrict record.cidr.toList).map fun target => (target, record.expiresAt)
  else none

/-- The entry that an ASN's record stands for. -/
def StoredAsn.entry (record : StoredAsn) : Option (ℕ × ℕ) :=
  if IsDeadline record.expiresAt ∧ record.asn ≠ 0 then some (record.asn, record.expiresAt) else none

theorem insertIp_eq_ok_iff (ips : SortedMap CanonicalCidr ℕ) (record : StoredIp)
    (next : SortedMap CanonicalCidr ℕ) :
    insertIp ips record = .ok next ↔
      ∃ entry, record.entry = some entry ∧ entry.1 ∉ ips.keys ∧
        next = ips.insert entry.1 entry.2 := by
  unfold insertIp StoredIp.entry
  simp only [bind_eq_ok_iff, validateExpiry_eq_ok_iff]
  by_cases deadline : IsDeadline record.expiresAt
  · rw [if_pos deadline]
    cases parseIpCidrStrict record.cidr.toList with
    | none => simp
    | some target =>
      simp only [Option.map_some, Option.some.injEq, exists_eq_left']
      by_cases known : (ips.lookup target).isSome = true
      · simp [deadline, known, SortedMap.isSome_lookup_iff.mp known]
      · have fresh : target ∉ ips.keys := mt SortedMap.isSome_lookup_iff.mpr known
        rw [if_neg known]
        simp only [deadline, true_and, fresh, not_false_eq_true, exists_eq_left]
        exact ⟨fun same => (Except.ok.inj same).symm, fun same => congrArg Except.ok same.symm⟩
  · simp [deadline]

theorem insertAsn_eq_ok_iff (asns : SortedMap ℕ ℕ) (record : StoredAsn) (next : SortedMap ℕ ℕ) :
    insertAsn asns record = .ok next ↔
      ∃ entry, record.entry = some entry ∧ entry.1 ∉ asns.keys ∧
        next = asns.insert entry.1 entry.2 := by
  unfold insertAsn StoredAsn.entry
  simp only [bind_eq_ok_iff, validateExpiry_eq_ok_iff, validateAsn_eq_ok_iff]
  by_cases valid : IsDeadline record.expiresAt ∧ record.asn ≠ 0
  · rw [if_pos valid]
    simp only [Option.some.injEq, exists_eq_left']
    by_cases known : (asns.lookup record.asn).isSome = true
    · simp [known, SortedMap.isSome_lookup_iff.mp known]
    · have fresh : record.asn ∉ asns.keys := mt SortedMap.isSome_lookup_iff.mpr known
      rw [if_neg known]
      simp only [valid.1, valid.2, true_and, fresh, not_false_eq_true, exists_eq_left, ne_eq,
        exists_const]
      exact ⟨fun same => (Except.ok.inj same).symm, fun same => congrArg Except.ok same.symm⟩
  · rw [if_neg valid]
    constructor
    · rintro ⟨_, ⟨deadline, _⟩, _, positive, _⟩
      exact absurd ⟨deadline, positive⟩ valid
    · rintro ⟨_, impossible, _⟩
      cases impossible

/-- A map holds exactly the entries of its records, which name distinct keys. -/
def HoldsRecords {α κ : Type} [LinearOrder κ] (entry : α → Option (κ × ℕ)) (records : List α)
    (map : SortedMap κ ℕ) : Prop :=
  ∃ entries, records.mapM entry = some entries ∧ (entries.map Prod.fst).Nodup ∧
    map = entries.foldl (fun built entry => built.insert entry.1 entry.2) .empty

theorem HoldsRecords.mem_entries {α κ : Type} [LinearOrder κ] {entry : α → Option (κ × ℕ)}
    {records : List α} {map : SortedMap κ ℕ} (holds : HoldsRecords entry records map)
    {stored : κ × ℕ} (member : stored ∈ map.entries) :
    ∃ record ∈ records, entry record = some stored := by
  obtain ⟨entries, read, distinct, rfl⟩ := holds
  rw [SortedMap.mem_entries_foldl_insert distinct] at member
  rcases member with fromRecord | ⟨_, fromEmpty⟩
  · exact exists_of_forall₂_right (mapM_eq_some_iff.mp read) fromRecord
  · cases fromEmpty

/-- What an accepted text says: its records name distinct identities with valid deadlines,
and the state holds exactly these. -/
theorem parseTemporaryBans_eq_ok_iff {library : TomlLibrary} {contents : String}
    {state : TemporaryBans} :
    parseTemporaryBans library contents = .ok state ↔
      ∃ document stored, library.parse contents = .ok document ∧
        StoredBans.decode document = some stored ∧ stored.version = 1 ∧
        HoldsRecords StoredIp.entry stored.ips state.ips ∧
        HoldsRecords StoredAsn.entry stored.asns state.asns := by
  have readSpec (stored : StoredBans) : readStoredBans library contents = .ok stored ↔
      ∃ document, library.parse contents = .ok document ∧
        StoredBans.decode document = some stored := by
    unfold readStoredBans
    cases library.parse contents with
    | error message => simp
    | ok document =>
      cases decoded : StoredBans.decode document with
      | none => simp [decoded]
      | some found => simp [decoded]
  have absent {κ : Type} [LinearOrder κ] (keys : List κ) :
      ∀ key ∈ keys, key ∉ (SortedMap.empty : SortedMap κ ℕ).keys := by
    intro key _ known
    cases known
  unfold parseTemporaryBans
  simp only [bind_eq_ok_iff, readSpec]
  constructor
  · rintro ⟨stored, ⟨document, parsed, decoded⟩, built⟩
    split at built
    case isTrue unsupported => cases built
    case isFalse supported =>
      simp only [bind_eq_ok_iff, SortedMap.foldlM_insert_eq_ok_iff insertIp_eq_ok_iff,
        SortedMap.foldlM_insert_eq_ok_iff insertAsn_eq_ok_iff] at built
      obtain ⟨ips, ⟨ipEntries, ipsRead, ipsDistinct, _, rfl⟩, asns,
        ⟨asnEntries, asnsRead, asnsDistinct, _, rfl⟩, same⟩ := built
      obtain rfl := Except.ok.inj same
      exact ⟨document, stored, parsed, decoded, not_not.mp supported,
        ⟨ipEntries, ipsRead, ipsDistinct, rfl⟩, ⟨asnEntries, asnsRead, asnsDistinct, rfl⟩⟩
  · rintro ⟨document, stored, parsed, decoded, supported, ⟨ipEntries, ipsRead, ipsDistinct, ips⟩,
      ⟨asnEntries, asnsRead, asnsDistinct, asns⟩⟩
    refine ⟨stored, ⟨document, parsed, decoded⟩, ?_⟩
    rw [if_neg (not_not.mpr supported)]
    simp only [bind_eq_ok_iff, SortedMap.foldlM_insert_eq_ok_iff insertIp_eq_ok_iff,
      SortedMap.foldlM_insert_eq_ok_iff insertAsn_eq_ok_iff]
    exact ⟨state.ips, ⟨ipEntries, ipsRead, ipsDistinct, absent _, ips⟩, state.asns,
      ⟨asnEntries, asnsRead, asnsDistinct, absent _, asns⟩, rfl⟩

/-! ### What a written document says -/

/-- The states that can be written: every deadline is representable and no ASN is zero. -/
structure TemporaryBans.Storable (state : TemporaryBans) : Prop where
  ips : ∀ entry ∈ state.ips.entries, IsDeadline entry.2
  asns : ∀ entry ∈ state.asns.entries, IsDeadline entry.2 ∧ entry.1 ≠ 0

/-- Every ASN is a 32-bit word, as in the source's type of states. -/
def TemporaryBans.WordSized (state : TemporaryBans) : Prop :=
  ∀ entry ∈ state.asns.entries, entry.1 < 2 ^ 32

/-- The table of a network with its deadline. -/
def ipTable (entry : CanonicalCidr × ℕ) : Toml :=
  .table [("cidr", .string entry.1.display), ("expires_at", .integer entry.2)]

/-- The table of an ASN with its deadline. -/
def asnTable (entry : ℕ × ℕ) : Toml :=
  .table [("asn", .integer entry.1), ("expires_at", .integer entry.2)]

/-- A named list of tables, left out when it is empty. -/
def recordsField {α : Type} (name : String) (table : α → Toml) (entries : List α) :
    List (String × Toml) :=
  if entries.isEmpty then [] else [(name, .array (entries.map table))]

theorem storedIp_eq_ok_iff (entry : CanonicalCidr × ℕ) (record : Toml) :
    storedIp entry = .ok record ↔ IsDeadline entry.2 ∧ record = ipTable entry := by
  unfold storedIp
  simp only [bind_eq_ok_iff, validateExpiry_eq_ok_iff]
  constructor
  · rintro ⟨_, ⟨deadline, rfl⟩, same⟩
    exact ⟨deadline, (Except.ok.inj same).symm⟩
  · rintro ⟨deadline, rfl⟩
    exact ⟨_, ⟨deadline, rfl⟩, rfl⟩

theorem storedAsn_eq_ok_iff (entry : ℕ × ℕ) (record : Toml) :
    storedAsn entry = .ok record ↔
      (IsDeadline entry.2 ∧ entry.1 ≠ 0) ∧ record = asnTable entry := by
  unfold storedAsn
  simp only [bind_eq_ok_iff, validateExpiry_eq_ok_iff, validateAsn_eq_ok_iff]
  constructor
  · rintro ⟨_, positive, _, ⟨deadline, rfl⟩, same⟩
    exact ⟨⟨deadline, positive⟩, (Except.ok.inj same).symm⟩
  · rintro ⟨⟨deadline, positive⟩, rfl⟩
    exact ⟨(), positive, _, ⟨deadline, rfl⟩, rfl⟩

theorem storedRecords_eq_ok_iff {α : Type} {name : String}
    {store : α → Except TemporaryBanError Toml} {passes : α → Prop} {table : α → Toml}
    (storeSpec : ∀ entry record, store entry = .ok record ↔ passes entry ∧ record = table entry)
    {entries : List α} {stored : List (String × Toml)} :
    storedRecords name store entries = .ok stored ↔
      (∀ entry ∈ entries, passes entry) ∧ stored = recordsField name table entries := by
  unfold storedRecords recordsField
  cases entries with
  | nil =>
    constructor
    · intro same
      exact ⟨by simp, (Except.ok.inj same).symm⟩
    · rintro ⟨_, rfl⟩
      rfl
  | cons first rest =>
    simp only [List.isEmpty_cons, Bool.false_eq_true, if_false, bind_eq_ok_iff,
      mapM_eq_ok_iff_of_item storeSpec]
    constructor
    · rintro ⟨_, ⟨valid, rfl⟩, same⟩
      exact ⟨valid, (Except.ok.inj same).symm⟩
    · rintro ⟨valid, rfl⟩
      exact ⟨_, ⟨valid, rfl⟩, rfl⟩

/-- The document of a state that can be written. -/
theorem temporaryBansDocument_eq_ok_iff {state : TemporaryBans} {document : Toml} :
    temporaryBansDocument state = .ok document ↔
      state.Storable ∧ document = .table (("version", .integer 1) ::
        (recordsField "ips" ipTable state.ips.entries ++
          recordsField "asns" asnTable state.asns.entries)) := by
  unfold temporaryBansDocument
  simp only [bind_eq_ok_iff, storedRecords_eq_ok_iff storedIp_eq_ok_iff,
    storedRecords_eq_ok_iff storedAsn_eq_ok_iff]
  constructor
  · rintro ⟨_, ⟨ips, rfl⟩, _, ⟨asns, rfl⟩, same⟩
    exact ⟨⟨ips, asns⟩, (Except.ok.inj same).symm⟩
  · rintro ⟨storable, rfl⟩
    exact ⟨_, ⟨storable.ips, rfl⟩, _, ⟨storable.asns, rfl⟩, rfl⟩

theorem decode_ipTable {entry : CanonicalCidr × ℕ} (deadline : IsDeadline entry.2) :
    StoredIp.decode (ipTable entry) = some ⟨entry.1.display, entry.2⟩ := by
  have small : entry.2 < 2 ^ 64 := by
    have bounded := deadline.2
    rw [maxExpiry] at bounded
    omega
  rw [StoredIp.decode, ipTable, Toml.fields_table_pair (by decide)]
  simp [Toml.asString, Toml.asUnsigned_natCast small]

theorem decode_asnTable {entry : ℕ × ℕ} (deadline : IsDeadline entry.2) (word : entry.1 < 2 ^ 32) :
    StoredAsn.decode (asnTable entry) = some ⟨entry.1, entry.2⟩ := by
  have small : entry.2 < 2 ^ 64 := by
    have bounded := deadline.2
    rw [maxExpiry] at bounded
    omega
  rw [StoredAsn.decode, asnTable, Toml.fields_table_pair (by decide)]
  simp [Toml.asUnsigned_natCast small, Toml.asUnsigned_natCast word]

/-- A list of tables is decoded from the fields it stands in. -/
theorem decodeRecords_recordsField {α β : Type} {decode : Toml → Option β} (name : String)
    {table : α → Toml} {record : α → β} {entries : List α} (others : List (String × Toml))
    (decodes : ∀ entry ∈ entries, decode (table entry) = some (record entry))
    (absent : others.lookup name = none) :
    decodeRecords decode ((recordsField name table entries ++ others).lookup name) =
      some (entries.map record) := by
  cases entries with
  | nil =>
    rw [recordsField, List.isEmpty_nil, if_pos rfl, List.nil_append, absent]
    rfl
  | cons first rest =>
    have mapped : (first :: rest).mapM (decode ∘ table) = some ((first :: rest).map record) :=
      mapM_some decodes
    rw [← List.mapM_map] at mapped
    rw [recordsField, List.isEmpty_cons, if_neg Bool.false_ne_true, List.cons_append,
      List.lookup_cons_self]
    exact mapped

theorem lookup_recordsField_append {α : Type} {name other : String} (table : α → Toml)
    (entries : List α) (others : List (String × Toml)) (different : other ≠ name) :
    (recordsField name table entries ++ others).lookup other = others.lookup other := by
  have unequal : (other == name) = false := by simpa using different
  cases entries with
  | nil => rfl
  | cons first rest =>
    rw [recordsField, List.isEmpty_cons, if_neg Bool.false_ne_true, List.cons_append,
      List.lookup_cons, unequal]
    rfl

theorem mem_recordsField {α : Type} {name : String} {table : α → Toml} {entries : List α}
    {field : String × Toml} (member : field ∈ recordsField name table entries) :
    field.1 = name := by
  cases entries with
  | nil => cases member
  | cons first rest =>
    obtain rfl := List.mem_singleton.mp member
    rfl

/-- The document of a state decodes to its records. -/
theorem decode_temporaryBansDocument {state : TemporaryBans} {document : Toml}
    (built : temporaryBansDocument state = .ok document) (wordSized : state.WordSized) :
    StoredBans.decode document =
      some ⟨1, state.ips.entries.map fun entry => ⟨entry.1.display, entry.2⟩,
        state.asns.entries.map fun entry => ⟨entry.1, entry.2⟩⟩ := by
  obtain ⟨storable, rfl⟩ := temporaryBansDocument_eq_ok_iff.mp built
  have known : ∀ field ∈ ("version", Toml.integer 1) ::
      (recordsField "ips" ipTable state.ips.entries ++
        recordsField "asns" asnTable state.asns.entries),
      field.1 ∈ ["version", "ips", "asns"] := by
    intro field member
    rcases List.mem_cons.mp member with rfl | isRecords
    · simp
    · rcases List.mem_append.mp isRecords with isIps | isAsns
      · simp [mem_recordsField isIps]
      · simp [mem_recordsField isAsns]
  have noIps : (recordsField "asns" asnTable state.asns.entries).lookup "ips" = none := by
    simpa using lookup_recordsField_append asnTable state.asns.entries []
      (show "ips" ≠ "asns" by decide)
  have asns := decodeRecords_recordsField "asns" []
    (fun entry member => decode_asnTable (storable.asns entry member).1 (wordSized entry member))
    rfl
  have asnsLookup := lookup_recordsField_append ipTable state.ips.entries
    (recordsField "asns" asnTable state.asns.entries) (show "asns" ≠ "ips" by decide)
  rw [List.append_nil] at asns
  have ips := decodeRecords_recordsField "ips" (recordsField "asns" asnTable state.asns.entries)
    (fun entry member => decode_ipTable (storable.ips entry member)) noIps
  have versionRead : Toml.asUnsigned 32 (.integer 1) = some 1 := rfl
  rw [StoredBans.decode, if_pos known]
  simp [List.lookup, versionRead, ips, asnsLookup, asns]

/-- The entries of a map, each with its record, are what the map holds. -/
theorem holdsRecords_map {α κ : Type} [LinearOrder κ] {entry : α → Option (κ × ℕ)}
    {record : κ × ℕ → α} {map : SortedMap κ ℕ}
    (reads : ∀ stored ∈ map.entries, entry (record stored) = some stored) :
    HoldsRecords entry (map.entries.map record) map := by
  have mapped : map.entries.mapM (entry ∘ record) = some (map.entries.map id) := mapM_some reads
  rw [← List.mapM_map, List.map_id] at mapped
  exact ⟨map.entries, mapped, map.nodup_keys, map.foldl_insert_entries.symm⟩

/-- A written state is read back. -/
theorem parseTemporaryBans_of_document {library : TomlLibrary} {contents : String}
    {state : TemporaryBans} {document : Toml} (built : temporaryBansDocument state = .ok document)
    (wordSized : state.WordSized) (read : library.parse contents = .ok document) :
    parseTemporaryBans library contents = .ok state := by
  have storable := (temporaryBansDocument_eq_ok_iff.mp built).1
  refine parseTemporaryBans_eq_ok_iff.mpr ⟨document, _, read,
    decode_temporaryBansDocument built wordSized, rfl, holdsRecords_map ?_, holdsRecords_map ?_⟩
  · intro entry member
    rw [StoredIp.entry, if_pos (storable.ips entry member), parseIpCidrStrict_display]
    rfl
  · intro entry member
    rw [StoredAsn.entry, if_pos (storable.asns entry member)]

/-- A state that was read can be written. -/
theorem storable_of_parse {library : TomlLibrary} {contents : String} {state : TemporaryBans}
    (accepted : parseTemporaryBans library contents = .ok state) : state.Storable := by
  obtain ⟨_, stored, _, _, _, ips, asns⟩ := parseTemporaryBans_eq_ok_iff.mp accepted
  constructor
  · intro entry member
    obtain ⟨record, _, read⟩ := ips.mem_entries member
    rw [StoredIp.entry] at read
    split at read
    case isTrue deadline =>
      obtain ⟨target, _, rfl⟩ := Option.map_eq_some_iff.mp read
      exact deadline
    case isFalse => cases read
  · intro entry member
    obtain ⟨record, _, read⟩ := asns.mem_entries member
    rw [StoredAsn.entry] at read
    split at read
    case isTrue valid =>
      obtain rfl := Option.some.inj read
      exact valid
    case isFalse => cases read

/-! ### Identities named twice -/

/-- The items of a named list of a document. -/
def listedRecords (name : String) (document : Toml) : List Toml :=
  ((document.entry name).bind Toml.asList).getD []

/-- The network that a record names, in any spelling. -/
def recordNetwork (record : Toml) : Option CanonicalCidr := do
  let cidr ← (← record.member "cidr" 0).asString
  parseIpCidrStrict cidr.toList

/-- The ASN that a record names. -/
def recordAsn (record : Toml) : Option ℕ := do (← record.member "asn" 0).asUnsigned 32

/-- The networks that the records of a document name, in document order. -/
def namedNetworks (document : Toml) : List CanonicalCidr :=
  (listedRecords "ips" document).filterMap recordNetwork

/-- The ASNs that the records of a document name, in document order. -/
def namedAsns (document : Toml) : List ℕ := (listedRecords "asns" document).filterMap recordAsn

theorem recordNetwork_of_decode {record : Toml} {stored : StoredIp}
    (decoded : StoredIp.decode record = some stored) :
    recordNetwork record = parseIpCidrStrict stored.cidr.toList := by
  unfold StoredIp.decode at decoded
  split at decoded
  case h_1 cidr expiresAt read =>
    have named : record.member "cidr" 0 = some cidr := Toml.member_of_fields read rfl
    cases text : cidr.asString with
    | none => simp [text] at decoded
    | some spelling =>
      cases deadline : expiresAt.asUnsigned 64 with
      | none => simp [deadline] at decoded
      | some expiry =>
        simp only [text, deadline, Option.bind_eq_bind, Option.bind_some, Option.pure_def,
          Option.some.injEq] at decoded
        rw [← decoded]
        simp [recordNetwork, named, text]
  case h_2 => cases decoded

theorem recordAsn_of_decode {record : Toml} {stored : StoredAsn}
    (decoded : StoredAsn.decode record = some stored) :
    recordAsn record = some stored.asn ∧ stored.asn < 2 ^ 32 := by
  unfold StoredAsn.decode at decoded
  split at decoded
  case h_1 asn expiresAt read =>
    have named : record.member "asn" 0 = some asn := Toml.member_of_fields read rfl
    cases number : asn.asUnsigned 32 with
    | none => simp [number] at decoded
    | some value =>
      cases deadline : expiresAt.asUnsigned 64 with
      | none => simp [deadline] at decoded
      | some expiry =>
        simp only [number, deadline, Option.bind_eq_bind, Option.bind_some, Option.pure_def,
          Option.some.injEq] at decoded
        rw [← decoded]
        exact ⟨by simp [recordAsn, named, number], Toml.lt_of_asUnsigned number⟩
  case h_2 => cases decoded

/-- The lists of a decoded document, record by record. -/
theorem decoded_records {document : Toml} {stored : StoredBans}
    (decoded : StoredBans.decode document = some stored) :
    List.Forall₂ (fun record ip => StoredIp.decode record = some ip)
        (listedRecords "ips" document) stored.ips ∧
      List.Forall₂ (fun record asn => StoredAsn.decode record = some asn)
        (listedRecords "asns" document) stored.asns := by
  have listed {α : Type} {decode : Toml → Option α} {found : Option Toml} {records : List α}
      (read : decodeRecords decode found = some records) :
      List.Forall₂ (fun record value => decode record = some value)
        ((found.bind Toml.asList).getD []) records := by
    cases found with
    | none =>
      obtain rfl := Option.some.inj read
      exact .nil
    | some list =>
      obtain ⟨items, isList, mapped⟩ := Option.bind_eq_some_iff.mp read
      rw [Option.bind_some, isList, Option.getD_some]
      exact mapM_eq_some_iff.mp mapped
  cases document with
  | table entries =>
    rw [StoredBans.decode] at decoded
    split at decoded
    case isTrue =>
      simp only [Option.bind_eq_bind, Option.bind_eq_some_iff, Option.pure_def,
        Option.some.injEq] at decoded
      obtain ⟨_, _, _, _, ips, ipsRead, asns, asnsRead, rfl⟩ := decoded
      exact ⟨listed ipsRead, listed asnsRead⟩
    case isFalse => cases decoded
  | string | integer | boolean | literal | array => cases decoded

/-- Records that a map holds name each key once. -/
theorem HoldsRecords.nodup {α κ : Type} [LinearOrder κ] {entry : α → Option (κ × ℕ)}
    {key : α → Option κ} {records : List α} {map : SortedMap κ ℕ}
    (holds : HoldsRecords entry records map)
    (keyOf : ∀ record stored, entry record = some stored → key record = some stored.1) :
    (records.filterMap key).Nodup := by
  obtain ⟨entries, read, distinct, _⟩ := holds
  have paired : List.Forall₂ (fun record stored => key record = some (Prod.fst stored))
      records entries := (mapM_eq_some_iff.mp read).imp keyOf
  rw [filterMap_eq_of_forall₂ paired]
  simpa only [List.filterMap_eq_map'] using distinct

/-- An accepted document names every identity once. -/
theorem nodup_named_of_parse {library : TomlLibrary} {contents : String} {state : TemporaryBans}
    {document : Toml} (read : library.parse contents = .ok document)
    (accepted : parseTemporaryBans library contents = .ok state) :
    (namedNetworks document).Nodup ∧ (namedAsns document).Nodup := by
  obtain ⟨_, stored, sameRead, decoded, _, ips, asns⟩ := parseTemporaryBans_eq_ok_iff.mp accepted
  obtain rfl := Except.ok.inj (read.symm.trans sameRead)
  obtain ⟨ipRecords, asnRecords⟩ := decoded_records decoded
  constructor
  · have named : namedNetworks document =
        stored.ips.filterMap fun record => parseIpCidrStrict record.cidr.toList :=
      filterMap_eq_of_forall₂ (ipRecords.imp fun _ _ => recordNetwork_of_decode)
    rw [named]
    apply ips.nodup
    intro record entry read
    rw [StoredIp.entry] at read
    split at read
    case isTrue =>
      obtain ⟨target, spelled, rfl⟩ := Option.map_eq_some_iff.mp read
      exact spelled
    case isFalse => cases read
  · have named : namedAsns document = stored.asns.filterMap fun record => some record.asn :=
      filterMap_eq_of_forall₂
        (asnRecords.imp fun _ _ decoded => (recordAsn_of_decode decoded).1)
    rw [named]
    apply asns.nodup
    intro record entry read
    rw [StoredAsn.entry] at read
    split at read
    case isTrue =>
      obtain rfl := Option.some.inj read
      rfl
    case isFalse => cases read

theorem wordSized_of_parse {library : TomlLibrary} {contents : String} {state : TemporaryBans}
    (accepted : parseTemporaryBans library contents = .ok state) : state.WordSized := by
  obtain ⟨_, stored, _, decoded, _, _, asns⟩ := parseTemporaryBans_eq_ok_iff.mp accepted
  intro entry member
  obtain ⟨record, isRecord, read⟩ := asns.mem_entries member
  obtain ⟨_, _, recordDecoded⟩ := exists_of_forall₂_right (decoded_records decoded).2 isRecord
  rw [StoredAsn.entry] at read
  split at read
  case isTrue =>
    obtain rfl := Option.some.inj read
    exact (recordAsn_of_decode recordDecoded).2
  case isFalse => cases read

/-! ### The codec -/

theorem serializeTemporaryBans_eq_ok_iff {library : TomlLibrary} {state : TemporaryBans}
    {contents : String} :
    serializeTemporaryBans library state = .ok contents ↔
      ∃ document, temporaryBansDocument state = .ok document ∧
        library.print document = contents := by
  unfold serializeTemporaryBans
  rw [bind_eq_ok_iff]
  apply exists_congr
  intro document
  apply and_congr_right
  intro _
  exact ⟨Except.ok.inj, congrArg Except.ok⟩

/-- Writing and reading fit each other: exactly the storable states are written, a written
state is read back, every state that was read can be written and read again, and a text
that names an identity twice is refused. -/
theorem temporaryBans_codec (library : TomlLibrary) (state : TemporaryBans)
    (faithful : ∀ document, temporaryBansDocument state = .ok document →
      library.parse (library.print document) = .ok document) :
    ((∃ contents, serializeTemporaryBans library state = .ok contents) ↔ state.Storable) ∧
      (∀ contents, serializeTemporaryBans library state = .ok contents → state.WordSized →
        parseTemporaryBans library contents = .ok state) ∧
      (∀ contents, parseTemporaryBans library contents = .ok state →
        ∃ written, serializeTemporaryBans library state = .ok written ∧
          parseTemporaryBans library written = .ok state) ∧
      ∀ contents document, library.parse contents = .ok document →
        ¬((namedNetworks document).Nodup ∧ (namedAsns document).Nodup) →
        ∃ error, parseTemporaryBans library contents = .error error := by
  have writes : (∃ contents, serializeTemporaryBans library state = .ok contents) ↔
      state.Storable := by
    simp only [serializeTemporaryBans_eq_ok_iff, temporaryBansDocument_eq_ok_iff]
    exact ⟨fun ⟨_, _, ⟨storable, _⟩, _⟩ => storable, fun storable => ⟨_, _, ⟨storable, rfl⟩, rfl⟩⟩
  have readsBack (contents : String)
      (written : serializeTemporaryBans library state = .ok contents)
      (wordSized : state.WordSized) : parseTemporaryBans library contents = .ok state := by
    obtain ⟨document, built, rfl⟩ := serializeTemporaryBans_eq_ok_iff.mp written
    exact parseTemporaryBans_of_document built wordSized (faithful document built)
  refine ⟨writes, readsBack, ?_, ?_⟩
  · intro contents accepted
    obtain ⟨written, serialized⟩ := writes.mpr (storable_of_parse accepted)
    exact ⟨written, serialized, readsBack written serialized (wordSized_of_parse accepted)⟩
  · intro contents document read twice
    cases parsed : parseTemporaryBans library contents with
    | error error => exact ⟨error, rfl⟩
    | ok accepted => exact absurd (nodup_named_of_parse read parsed) twice

/-- A document with these records. -/
def recordedDocument (ips : List (String × ℤ)) (asns : List (ℤ × ℤ)) : Toml :=
  .table [("version", .integer 1),
    ("ips", .array (ips.map fun record =>
      .table [("cidr", .string record.1), ("expires_at", .integer record.2)])),
    ("asns", .array (asns.map fun record =>
      .table [("asn", .integer record.1), ("expires_at", .integer record.2)]))]

/-- A state with a network and an ASN. -/
def recordedBans : TemporaryBans where
  ips := SortedMap.empty.insert (.v4 (.fromParts 0x0A000000#32 24 (by decide))) 1700000000
  asns := SortedMap.empty.insert 64500 1800000000

/-- The text of this state. -/
def recordedContents : String :=
  "version = 1\n\n[[ips]]\ncidr = \"10.0.0.0/24\"\nexpires_at = 1700000000\n" ++
    "\n[[asns]]\nasn = 64500\nexpires_at = 1800000000\n"

/-- A text that names the network a second time, by another of its addresses. -/
def repeatedContents : String :=
  "version = 1\n\n[[ips]]\ncidr = \"10.0.0.0/24\"\nexpires_at = 1700000000\n" ++
    "\n[[ips]]\ncidr = \"10.0.0.7/24\"\nexpires_at = 1700000000\n" ++
    "\n[[asns]]\nasn = 64500\nexpires_at = 1800000000\n"

/-- A library that knows these two texts and their documents. -/
def recordedLibrary : TomlLibrary where
  parse contents :=
    if contents = recordedContents then
      .ok (recordedDocument [("10.0.0.0/24", 1700000000)] [(64500, 1800000000)])
    else if contents = repeatedContents then
      .ok (recordedDocument [("10.0.0.0/24", 1700000000), ("10.0.0.7/24", 1700000000)]
        [(64500, 1800000000)])
    else .error "unexpected content"
  print _ := recordedContents
  mismatch _ := "unexpected document"

theorem recordedBans_storable : recordedBans.Storable where
  ips entry member := by
    obtain rfl := List.mem_singleton.mp member
    decide
  asns entry member := by
    obtain rfl := List.mem_singleton.mp member
    decide

theorem recordedLibrary_faithful (document : Toml)
    (built : temporaryBansDocument recordedBans = .ok document) :
    recordedLibrary.parse (recordedLibrary.print document) = .ok document := by
  obtain ⟨_, rfl⟩ := temporaryBansDocument_eq_ok_iff.mp built
  -- the printed network is the one that the text spells
  have spelled : (CanonicalCidr.v4 (.fromParts 0x0A000000#32 24 (by decide))).display =
      "10.0.0.0/24" := by decide +kernel
  have isDocument : recordedLibrary.parse recordedContents =
      .ok (recordedDocument [("10.0.0.0/24", 1700000000)] [(64500, 1800000000)]) := rfl
  rw [← spelled] at isDocument
  exact isDocument

/-- A state with records of both kinds is written and read back, and the text that names its
network twice is refused. -/
theorem temporaryBans_codec_recorded :
    (∃ contents, serializeTemporaryBans recordedLibrary recordedBans = .ok contents ∧
      parseTemporaryBans recordedLibrary contents = .ok recordedBans) ∧
    ∃ error, parseTemporaryBans recordedLibrary repeatedContents = .error error := by
  have codec := temporaryBans_codec recordedLibrary recordedBans recordedLibrary_faithful
  constructor
  · obtain ⟨contents, written⟩ := codec.1.mpr recordedBans_storable
    refine ⟨contents, written, codec.2.1 contents written ?_⟩
    intro entry member
    obtain rfl := List.mem_singleton.mp member
    decide
  · have differs : repeatedContents ≠ recordedContents := by decide +kernel
    have isDocument : recordedLibrary.parse repeatedContents =
        .ok (recordedDocument [("10.0.0.0/24", 1700000000), ("10.0.0.7/24", 1700000000)]
          [(64500, 1800000000)]) := by
      simp only [recordedLibrary, if_neg differs, if_true]
    -- both spellings name the network 10.0.0.0/24
    have repeated : ¬(namedNetworks (recordedDocument
        [("10.0.0.0/24", 1700000000), ("10.0.0.7/24", 1700000000)]
          [(64500, 1800000000)])).Nodup := by decide +kernel
    exact codec.2.2.2 repeatedContents _ isDocument fun distinct => repeated distinct.1

/-! ### The file -/

/-- Maximum accepted temporary-ban state size, matching the local blocklist bound. -/
def temporaryBansReadLimit : ℕ := 16 * 1024 * 1024

/-- Why a file is not saved or loaded. -/
inductive BanFileFault where
  | state (error : TemporaryBanError)
  | tooLarge (limit : ℕ)

/-- `save_with_limit`, up to the write: the contents that replace the file. -/
def contentsToSave (library : TomlLibrary) (limit : ℕ) (state : TemporaryBans) :
    Except BanFileFault String :=
  match serializeTemporaryBans library state with
  | .error error => .error (.state error)
  | .ok contents => if limit < contents.utf8ByteSize then .error (.tooLarge limit) else .ok contents

/-- `load`, from the contents of the file; a missing file is the empty state. -/
def loadState (library : TomlLibrary) (limit : ℕ) :
    Option String → Except BanFileFault TemporaryBans
  | none => .ok .empty
  | some contents =>
    if limit < contents.utf8ByteSize then .error (.tooLarge limit)
    else
      match parseTemporaryBans library contents with
      | .error error => .error (.state error)
      | .ok state => .ok state

/-- A state that can be saved can be loaded again. -/
theorem loadState_contentsToSave {library : TomlLibrary} {limit : ℕ} {state : TemporaryBans}
    {contents : String} (saved : contentsToSave library limit state = .ok contents)
    (faithful : ∀ document, temporaryBansDocument state = .ok document →
      library.parse (library.print document) = .ok document)
    (wordSized : state.WordSized) : loadState library limit (some contents) = .ok state := by
  unfold contentsToSave at saved
  cases written : serializeTemporaryBans library state with
  | error error =>
    rw [written] at saved
    cases saved
  | ok text =>
    rw [written] at saved
    simp only at saved
    split at saved
    case isTrue => cases saved
    case isFalse fits =>
      obtain rfl := Except.ok.inj saved
      obtain ⟨document, built, rfl⟩ := serializeTemporaryBans_eq_ok_iff.mp written
      have readBack := parseTemporaryBans_of_document built wordSized (faithful document built)
      rw [loadState, if_neg fits, readBack]

end Kidobo
