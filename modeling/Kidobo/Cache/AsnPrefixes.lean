import Kidobo.App.Admission
import Kidobo.App.Ports
import Kidobo.Cache.RemoteFeed
import Kidobo.Network.RoundTrip

/-!
# Prefixes of an autonomous system and their cache

The cache of an autonomous system is a text with one network in each line. A
fresh cache is used as it is, a stale one when the resolver has nothing better,
and an empty list of prefixes is never an answer.

## Main definitions

* `prepareAsnPrefixes`, `loadAsnPrefixesWithCache`, `readAsnForPreview`
* `serializeAsnCache`, `parseCidrsFromCacheContents`: the text of a cache
* `usableCache`, `resolution`: what the cache and the resolver have to offer
* `loadAsnBans`: the provider of the prefixes of every banned system

## Main results

* `parse_serializeAsnCache`: a cache that is written is read back
* `preparePolicy`: when the cache, the resolver or nothing is used
* `asnPrefixes_policy`
-/

namespace Kidobo

open Foundation

/-! ### Operations -/

/-- Failure while resolving, reading or writing the prefixes of a system. -/
inductive AsnError where
  | resolveFailed (asn : ℕ) (reason : String)
  | cacheRead (path : String) (source : IoError)
  | cacheWrite (path : String) (source : IoError)

/-- What the adapter asks of its surroundings. -/
inductive AsnOp where
  /-- The metadata of a file and its time of modification. -/
  | metadata (path : String)
  | readFile (path : String)
  | now
  | resolvePrefixes (asn : ℕ)
  | createDirAll (path : String)
  | writeAtomic (path : String) (contents : List Char)
  | isCancelled
  deriving DecidableEq

/-- What each operation answers. Times are in nanoseconds. -/
@[reducible] def AsnOp.Result : AsnOp → Type
  | metadata _ => Except IoError (Except IoError ℕ)
  | readFile _ => Except IoError Bytes
  | now => ℕ
  | resolvePrefixes _ => Except AsnError (List CanonicalCidr)
  | createDirAll _ => Except IoError Unit
  | writeAtomic _ _ => Except IoError Unit
  | isCancelled => Bool

/-- A program over these operations. -/
abbrev AsnProgram (ε α : Type) := Program AsnOp AsnOp.Result ε α

/-- Perform one operation. -/
def askAsn {ε : Type} (op : AsnOp) : AsnProgram ε op.Result := Program.perform op

/-! ### The text of a cache -/

/-- `ASN_CACHE_FILE_READ_LIMIT`. -/
def asnCacheFileReadLimit : ℕ := 8 * 1024 * 1024

/-- `ASN_CACHE_FILE_WRITE_HEADER`. -/
def asnCacheFileWriteHeader : List Char := "# kidobo-asn-cache-v1".toList

/-- The error of contents beyond the limit. -/
def asnCacheTooLarge : IoError := .failed s!"file exceeds {asnCacheFileReadLimit} byte limit"

/-- Append the lines of the remaining prefixes while they fit. -/
def serializeRemaining (output : List Char) : List CanonicalCidr → Except IoError (List Char)
  | [] => .ok output
  | cidr :: rest =>
    let line := cidr.display.toList
    if asnCacheFileReadLimit < byteLength output + byteLength line + 1 then .error asnCacheTooLarge
    else serializeRemaining (output ++ line ++ ['\n']) rest

/-- `serialize_asn_cache`. -/
def serializeAsnCache (prefixes : List CanonicalCidr) : Except IoError (List Char) :=
  serializeRemaining (asnCacheFileWriteHeader ++ ['\n']) prefixes

/-- The networks of the remaining lines; a line that is none refuses the text. -/
def parseCacheLines : List (List Char) → Option (List CanonicalCidr)
  | [] => some []
  | line :: rest =>
    let trimmed := trim line
    if trimmed.isEmpty || trimmed.head? == some '#' then parseCacheLines rest
    else (parseIpCidrToken trimmed).bind fun cidr => (parseCacheLines rest).map (cidr :: ·)

/-- `parse_cidrs_from_cache_contents`. -/
def parseCidrsFromCacheContents (contents : List Char) : Option (List CanonicalCidr) :=
  (parseCacheLines (lines contents)).map sortedUnique

/-! ### Reading and writing a cache -/

/-- The cache of a system. -/
def asnCacheFile (cacheDir : String) (asn : ℕ) : String := cacheDir ++ s!"/as{asn}.iplist"

/-- A cache that was read and parsed. -/
structure AsnCacheState where
  modified : ℕ
  prefixes : List CanonicalCidr

/-- `read_to_string_with_limit` of what the file holds. -/
def readToStringWithLimit (limit : ℕ) : Except IoError Bytes → Except IoError (List Char)
  | .error error => .error error
  | .ok bytes =>
    if limit < bytes.length then .error (.failed s!"file exceeds {limit} byte limit")
    else
      match fromUtf8 bytes with
      | none => .error (.failed "invalid utf-8 sequence")
      | some text => .ok text

/-- `read_asn_cache_file`: an absent file and a text that does not parse are no cache. -/
def readAsnCacheFile (path : String) : AsnProgram AsnError (Option AsnCacheState) := do
  match ← askAsn (.metadata path) with
  | .error .notFound => return none
  | .error source => throw (.cacheRead path source)
  | .ok (.error source) => throw (.cacheRead path source)
  | .ok (.ok modified) =>
    match readToStringWithLimit asnCacheFileReadLimit (← askAsn (.readFile path)) with
    | .error source => throw (.cacheRead path source)
    | .ok contents =>
      return (parseCidrsFromCacheContents contents).map fun prefixes => ⟨modified, prefixes⟩

/-- `write_asn_cache_file`. -/
def writeAsnCacheFile (cacheDir : String) (asn : ℕ) (prefixes : List CanonicalCidr) :
    AsnProgram AsnError Unit := do
  let path := asnCacheFile cacheDir asn
  match serializeAsnCache prefixes with
  | .error source => throw (.cacheWrite path source)
  | .ok output =>
    match ← askAsn (.createDirAll cacheDir) with
    | .error source => throw (.cacheWrite cacheDir source)
    | .ok () =>
      if asnCacheFileReadLimit < byteLength output then throw (.cacheWrite path asnCacheTooLarge)
      else
        match ← askAsn (.writeAtomic path output) with
        | .error source => throw (.cacheWrite path source)
        | .ok () => return ()

/-! ### Preparing prefixes -/

/-- Prefixes from the resolver or a usable cache. -/
structure CachedAsnPrefixes where
  prefixes : List CanonicalCidr
  stale : Bool
  source : SourceProvenance

/-- `state_is_stale`; a time of modification in the future is stale. -/
def isStaleAt (now modified staleAfter : ℕ) : Bool :=
  if modified ≤ now then decide (staleAfter ≤ now - modified) else true

/-- An answer of the resolver; an empty one is a failure. -/
def nonemptyResolution (asn : ℕ) :
    Except AsnError (List CanonicalCidr) → Except AsnError (List CanonicalCidr)
  | .error error => .error error
  | .ok prefixes =>
    if prefixes.isEmpty then
      .error (.resolveFailed asn "resolver returned no IPv4 or IPv6 prefixes")
    else .ok prefixes

/-- Ask the resolver, and fall back to a cache that is no longer fresh. -/
def refreshAsnPrefixes (asn : ℕ) (cacheState : Option AsnCacheState) :
    AsnProgram AsnError CachedAsnPrefixes := do
  match nonemptyResolution asn (← askAsn (.resolvePrefixes asn)) with
  | .ok prefixes => return ⟨prefixes, false, .network⟩
  | .error error =>
    match cacheState with
    | some stale => return ⟨stale.prefixes, true, .fallbackCache⟩
    | none => throw error

/-- `prepare_asn_prefixes`, with or without a resolver. -/
def prepareAsnPrefixes (asn : ℕ) (cacheDir : String) (staleAfter : ℕ) (mayResolve : Bool) :
    AsnProgram AsnError CachedAsnPrefixes := do
  let read ← readAsnCacheFile (asnCacheFile cacheDir asn)
  match mayResolve, read.filter fun state => !state.prefixes.isEmpty with
  | false, none =>
    throw (.resolveFailed asn ("offline preview has no usable cached prefixes; " ++
      "use --allow-network to resolve this ASN"))
  | false, some state => do
    let now ← askAsn .now
    return ⟨state.prefixes, isStaleAt now state.modified staleAfter, .cache⟩
  | true, none => refreshAsnPrefixes asn none
  | true, some state => do
    let now ← askAsn .now
    if isStaleAt now state.modified staleAfter then refreshAsnPrefixes asn (some state)
    else return ⟨state.prefixes, false, .cache⟩

/-- `load_asn_prefixes_with_cache`. -/
def loadAsnPrefixesWithCache (asn : ℕ) (cacheDir : String) (staleAfter : ℕ) :
    AsnProgram AsnError CachedAsnPrefixes := do
  let loaded ← prepareAsnPrefixes asn cacheDir staleAfter true
  if loaded.source = .network then writeAsnCacheFile cacheDir asn loaded.prefixes
  return loaded

/-- `read_asn_for_preview`. -/
def readAsnForPreview (asn : ℕ) (cacheDir : String) (staleAfter : ℕ) (mayResolve : Bool) :
    AsnProgram AsnError CachedAsnPrefixes := do
  let loaded ← prepareAsnPrefixes asn cacheDir staleAfter mayResolve
  if loaded.source = .network then
    match serializeAsnCache loaded.prefixes with
    | .error source => throw (.cacheWrite (asnCacheFile cacheDir asn) source)
    | .ok _ => return loaded
  else return loaded

/-! ### The written cache is read back -/

theorem byteLength_append (left right : List Char) :
    byteLength (left ++ right) = byteLength left + byteLength right := by
  simp [byteLength]

theorem byteLength_eq_length_encodeUtf8 (text : List Char) :
    (encodeUtf8 text).length = byteLength text := by
  induction text with
  | nil => rfl
  | cons char rest ih =>
    simp only [encodeUtf8, byteLength, List.flatMap_cons, List.length_append, List.map_cons,
      List.sum_cons, String.length_utf8EncodeChar] at ih ⊢
    rw [ih]

/-- A text is built from the lines of the prefixes, and only within the limit. -/
theorem serializeRemaining_eq_ok {output text : List Char} {prefixes : List CanonicalCidr}
    (accepted : serializeRemaining output prefixes = .ok text)
    (short : byteLength output ≤ asnCacheFileReadLimit) :
    text = output ++ (prefixes.flatMap fun cidr => cidr.display.toList ++ ['\n']) ∧
      byteLength text ≤ asnCacheFileReadLimit := by
  induction prefixes generalizing output with
  | nil =>
    obtain rfl := Except.ok.inj accepted
    exact ⟨by simp, short⟩
  | cons cidr rest ih =>
    rw [serializeRemaining] at accepted
    split_ifs at accepted with large
    have feed : byteLength ['\n'] = 1 := rfl
    obtain ⟨rfl, bounded⟩ := ih accepted (by
      rw [byteLength_append, byteLength_append, feed]
      omega)
    exact ⟨by simp, bounded⟩

theorem parseCacheLines_display (prefixes : List CanonicalCidr) :
    parseCacheLines (prefixes.map fun cidr => cidr.display.toList) = some prefixes := by
  induction prefixes with
  | nil => rfl
  | cons cidr rest ih =>
    have noComment : cidr.display.toList.head? ≠ some '#' := by
      intro isFirst
      exact (plain_display cidr '#' (List.mem_of_mem_head? isFirst)).2 rfl
    have isNetwork : (cidr.display.toList.isEmpty || cidr.display.toList.head? == some '#') =
        false := by
      simp [noComment, display_ne_nil cidr]
    rw [List.map_cons, parseCacheLines, trim_display]
    simp only [isNetwork, Bool.false_eq_true, if_false, parseIpCidrToken_display,
      Option.bind_some, ih, Option.map_some]

theorem lines_serialized (prefixes : List CanonicalCidr) :
    lines (asnCacheFileWriteHeader ++ ['\n'] ++
      (prefixes.flatMap fun cidr => cidr.display.toList ++ ['\n'])) =
        asnCacheFileWriteHeader :: prefixes.map fun cidr => cidr.display.toList := by
  have headerSingle : '\n' ∉ asnCacheFileWriteHeader := by decide
  have headerKept : stripCarriageReturn asnCacheFileWriteHeader = asnCacheFileWriteHeader := by decide
  have singleLines : ∀ line ∈ prefixes.map fun cidr => cidr.display.toList, '\n' ∉ line := by
    intro line member isFeed
    obtain ⟨cidr, _, rfl⟩ := List.mem_map.mp member
    exact absurd (plain_display cidr '\n' isFeed).1 (by decide)
  have kept (cidr : CanonicalCidr) :
      stripCarriageReturn cidr.display.toList = cidr.display.toList := by
    have noReturn : cidr.display.toList.getLast? ≠ some '\r' := by
      intro isLast
      exact absurd (plain_display cidr '\r' (List.mem_of_mem_getLast? isLast)).1 (by decide)
    rw [stripCarriageReturn, if_neg noReturn]
  have broken := lines_flatMap singleLines
  rw [List.flatMap_map, List.map_map] at broken
  rw [List.append_assoc, List.singleton_append, lines_append headerSingle, headerKept, broken]
  congr 1
  exact List.map_congr_left fun cidr _ => kept cidr

/-- A text that was serialized parses to the sorted distinct prefixes, and the
reader takes a file of its size. -/
theorem parse_serializeAsnCache {prefixes : List CanonicalCidr} {text : List Char}
    (accepted : serializeAsnCache prefixes = .ok text) :
    parseCidrsFromCacheContents text = some (sortedUnique prefixes) ∧
      (encodeUtf8 text).length ≤ asnCacheFileReadLimit ∧
      readToStringWithLimit asnCacheFileReadLimit (.ok (encodeUtf8 text)) = .ok text := by
  obtain ⟨rfl, bounded⟩ := serializeRemaining_eq_ok accepted (by decide)
  rw [← byteLength_eq_length_encodeUtf8] at bounded
  refine ⟨?_, bounded, ?_⟩
  · have header : parseCacheLines (asnCacheFileWriteHeader ::
        prefixes.map fun cidr => cidr.display.toList) = some prefixes := by
      rw [parseCacheLines]
      have comment : (trim asnCacheFileWriteHeader).head? = some '#' := by decide
      simp only [comment, beq_self_eq_true, Bool.or_true, if_true]
      exact parseCacheLines_display prefixes
    rw [parseCidrsFromCacheContents, lines_serialized, header, Option.map_some]
  · rw [readToStringWithLimit, if_neg (not_lt.mpr bounded), fromUtf8_encodeUtf8]

/-! ### What the cache and the resolver offer -/

/-- What every operation answers, when it is asked. -/
abbrev AsnAnswers := (op : AsnOp) → op.Result

/-- The environment that answers in this way and remembers what it was asked. -/
def asking (answers : AsnAnswers) : Handler AsnOp AsnOp.Result (List AsnOp) :=
  fun asked op => (answers op, asked ++ [op])

/-- How a program ends, and what it asked. -/
def outcome {ε α : Type} (answers : AsnAnswers) (program : AsnProgram ε α) :
    Ending ε α × List AsnOp :=
  exec (asking answers) program []

theorem exec_askAsn {ε α : Type} (answers : AsnAnswers) (op : AsnOp)
    (next : op.Result → AsnProgram ε α) (asked : List AsnOp) :
    exec (asking answers) (askAsn op >>= next) asked =
      exec (asking answers) (next (answers op)) (asked ++ [op]) := rfl

/-- What was asked stays known. -/
theorem asked_subset {ε α : Type} (answers : AsnAnswers) (program : AsnProgram ε α)
    (asked : List AsnOp) : asked ⊆ (exec (asking answers) program asked).2 := by
  induction program generalizing asked with
  | ret value => exact List.Subset.refl _
  | fail error => exact List.Subset.refl _
  | spin => exact List.Subset.refl _
  | call op next ih =>
    exact List.Subset.trans (List.subset_append_left asked [op]) (ih (answers op) (asked ++ [op]))

theorem asked_subset_bind {ε α β : Type} (answers : AsnAnswers) (program : AsnProgram ε β)
    (next : β → AsnProgram ε α) (asked : List AsnOp) :
    (exec (asking answers) program asked).2 ⊆ (exec (asking answers) (program >>= next) asked).2 := by
  rw [exec_bind]
  rcases exec (asking answers) program asked with ⟨value | error | _, middle⟩
  · exact asked_subset answers (next value) middle
  · exact List.Subset.refl _
  · exact List.Subset.refl _

section Policy

variable (answers : AsnAnswers) (asn : ℕ) (cacheDir : String) (staleAfter : ℕ)

/-- The cache file is absent, or its text can be read within the limit. -/
def ReadableCache (path : String) : Prop :=
  answers (.metadata path) = .error .notFound ∨
    ∃ modified contents, answers (.metadata path) = .ok (.ok modified) ∧
      readToStringWithLimit asnCacheFileReadLimit (answers (.readFile path)) = .ok contents

/-- The cache, when it has prefixes. -/
def usableCache (path : String) : Option AsnCacheState :=
  match answers (.metadata path),
      readToStringWithLimit asnCacheFileReadLimit (answers (.readFile path)) with
  | .ok (.ok modified), .ok contents =>
    ((parseCidrsFromCacheContents contents).map (AsnCacheState.mk modified)).filter
      fun state => !state.prefixes.isEmpty
  | _, _ => none

/-- The prefixes of the resolver, when it has some. -/
def resolution : Option (List CanonicalCidr) :=
  match answers (.resolvePrefixes asn) with
  | .error _ => none
  | .ok prefixes => if prefixes.isEmpty then none else some prefixes

/-- Whether a cache is older than its refresh interval. -/
def IsStale (state : AsnCacheState) : Prop :=
  isStaleAt (answers .now) state.modified staleAfter = true

/-- How asking the resolver ends: with its prefixes, if it has some; else with those
of the cache; else with a failure. -/
def RefreshEnds (cacheState : Option AsnCacheState)
    (ending : Ending AsnError CachedAsnPrefixes) : Prop :=
  match resolution answers asn, cacheState with
  | some prefixes, _ => ending = .returned ⟨prefixes, false, .network⟩
  | none, some state => ending = .returned ⟨state.prefixes, true, .fallbackCache⟩
  | none, none => ∃ error, ending = .failed error

/-- When the cache, the resolver or nothing is used. What decides is the age of the
cache: only when no usable cache is fresh is the resolver asked. -/
structure PreparePolicy : Prop where
  nonempty : ∀ loaded, (outcome answers (prepareAsnPrefixes asn cacheDir staleAfter true)).1 =
    .returned loaded → loaded.prefixes ≠ []
  fresh : ∀ state, usableCache answers (asnCacheFile cacheDir asn) = some state →
    ¬IsStale answers staleAfter state →
      (outcome answers (prepareAsnPrefixes asn cacheDir staleAfter true)).1 =
        .returned ⟨state.prefixes, false, .cache⟩ ∧
      .resolvePrefixes asn ∉ (outcome answers (prepareAsnPrefixes asn cacheDir staleAfter true)).2
  unfresh : (∀ state, usableCache answers (asnCacheFile cacheDir asn) = some state →
      IsStale answers staleAfter state) →
    RefreshEnds answers asn (usableCache answers (asnCacheFile cacheDir asn))
        (outcome answers (prepareAsnPrefixes asn cacheDir staleAfter true)).1 ∧
      .resolvePrefixes asn ∈ (outcome answers (prepareAsnPrefixes asn cacheDir staleAfter true)).2
  fails_iff :
    (∃ error, (outcome answers (prepareAsnPrefixes asn cacheDir staleAfter true)).1 =
      .failed error) ↔
        usableCache answers (asnCacheFile cacheDir asn) = none ∧ resolution answers asn = none

variable {answers asn cacheDir staleAfter}

/-- A readable file is read as its usable cache, without the resolver. -/
theorem exec_readAsnCacheFile {path : String} (readable : ReadableCache answers path)
    (asked : List AsnOp) :
    ∃ read reads, exec (asking answers) (readAsnCacheFile path) asked =
        (.returned read, asked ++ reads) ∧
      read.filter (fun state => !state.prefixes.isEmpty) = usableCache answers path ∧
      .resolvePrefixes asn ∉ reads := by
  rcases readable with absent | ⟨modified, contents, isFile, isText⟩
  · refine ⟨none, [.metadata path], ?_, ?_, by simp⟩
    · rw [readAsnCacheFile, exec_askAsn, absent]
      rfl
    · rw [usableCache, absent]
      rfl
  · refine ⟨(parseCidrsFromCacheContents contents).map (AsnCacheState.mk modified),
      [.metadata path, .readFile path], ?_, ?_, by simp⟩
    · rw [readAsnCacheFile, exec_askAsn, isFile]
      dsimp only
      rw [exec_askAsn, isText]
      simp
    · rw [usableCache, isFile, isText]

theorem exec_refreshAsnPrefixes (cacheState : Option AsnCacheState) (asked : List AsnOp) :
    ∃ ending, exec (asking answers) (refreshAsnPrefixes asn cacheState) asked =
      (ending, asked ++ [.resolvePrefixes asn]) ∧ RefreshEnds answers asn cacheState ending := by
  unfold RefreshEnds resolution
  rw [refreshAsnPrefixes, exec_askAsn]
  cases answers (.resolvePrefixes asn) with
  | error error =>
    cases cacheState with
    | none => exact ⟨_, rfl, error, rfl⟩
    | some state => exact ⟨_, rfl, rfl⟩
  | ok prefixes =>
    cases prefixes with
    | nil =>
      cases cacheState with
      | none => exact ⟨_, rfl, _, rfl⟩
      | some state => exact ⟨_, rfl, rfl⟩
    | cons first rest => exact ⟨_, rfl, rfl⟩

/-- A readable cache is used while it is fresh; otherwise the resolver is asked. -/
theorem outcome_prepareAsnPrefixes
    (readable : ReadableCache answers (asnCacheFile cacheDir asn)) :
    (∃ state, usableCache answers (asnCacheFile cacheDir asn) = some state ∧
      ¬IsStale answers staleAfter state ∧
      (outcome answers (prepareAsnPrefixes asn cacheDir staleAfter true)).1 =
        .returned ⟨state.prefixes, false, .cache⟩ ∧
      .resolvePrefixes asn ∉
        (outcome answers (prepareAsnPrefixes asn cacheDir staleAfter true)).2) ∨
    ((∀ state, usableCache answers (asnCacheFile cacheDir asn) = some state →
        IsStale answers staleAfter state) ∧
      RefreshEnds answers asn (usableCache answers (asnCacheFile cacheDir asn))
        (outcome answers (prepareAsnPrefixes asn cacheDir staleAfter true)).1 ∧
      .resolvePrefixes asn ∈
        (outcome answers (prepareAsnPrefixes asn cacheDir staleAfter true)).2) := by
  obtain ⟨read, reads, executed, usable, unasked⟩ :=
    @exec_readAsnCacheFile answers asn _ readable []
  unfold outcome prepareAsnPrefixes
  rw [exec_bind_of_returned executed, usable]
  cases cached : usableCache answers (asnCacheFile cacheDir asn) with
  | none =>
    obtain ⟨ending, refreshed, ends⟩ := @exec_refreshAsnPrefixes answers asn none
      ([] ++ reads)
    refine Or.inr ⟨fun state impossible => (Option.some_ne_none state impossible.symm).elim, ?_⟩
    simp only [refreshed]
    exact ⟨ends, by simp⟩
  | some state =>
    dsimp only
    rw [exec_askAsn]
    by_cases stale : isStaleAt (answers .now) state.modified staleAfter = true
    · obtain ⟨ending, refreshed, ends⟩ := @exec_refreshAsnPrefixes answers asn (some state)
        ([] ++ reads ++ [.now])
      refine Or.inr ⟨fun other same => Option.some.inj same ▸ stale, ?_⟩
      rw [if_pos stale, refreshed]
      exact ⟨ends, by simp⟩
    · refine Or.inl ⟨state, rfl, stale, ?_⟩
      rw [if_neg stale]
      refine ⟨rfl, ?_⟩
      simpa using unasked

/-- A refresh that returns has prefixes, since what it chooses from has. -/
theorem prefixes_ne_nil_of_refreshEnds {cacheState : Option AsnCacheState}
    {loaded : CachedAsnPrefixes}
    (cacheNonempty : ∀ state, cacheState = some state → state.prefixes ≠ [])
    (resolvedNonempty : ∀ prefixes, resolution answers asn = some prefixes → prefixes ≠ [])
    (ends : RefreshEnds answers asn cacheState (.returned loaded)) : loaded.prefixes ≠ [] := by
  unfold RefreshEnds at ends
  cases resolved : resolution answers asn with
  | some prefixes =>
    rw [resolved] at ends
    cases ends
    exact resolvedNonempty prefixes resolved
  | none =>
    rw [resolved] at ends
    cases cacheState with
    | some state =>
      cases ends
      exact cacheNonempty state rfl
    | none =>
      obtain ⟨error, failed⟩ := ends
      cases failed

/-- A refresh fails exactly when neither the cache nor the resolver has prefixes. -/
theorem failed_iff_of_refreshEnds {cacheState : Option AsnCacheState}
    {ending : Ending AsnError CachedAsnPrefixes} (ends : RefreshEnds answers asn cacheState ending) :
    (∃ error, ending = .failed error) ↔ cacheState = none ∧ resolution answers asn = none := by
  unfold RefreshEnds at ends
  cases resolved : resolution answers asn with
  | some prefixes =>
    rw [resolved] at ends
    simp [show ending = _ from ends]
  | none =>
    rw [resolved] at ends
    cases cacheState with
    | some state => simp [show ending = _ from ends]
    | none => exact iff_of_true ends ⟨rfl, rfl⟩

/-- When each of the cache and the resolver is used, on a readable cache. -/
theorem preparePolicy (readable : ReadableCache answers (asnCacheFile cacheDir asn)) :
    PreparePolicy answers asn cacheDir staleAfter := by
  have cacheNonempty : ∀ state, usableCache answers (asnCacheFile cacheDir asn) = some state →
      state.prefixes ≠ [] := by
    intro state usable
    unfold usableCache at usable
    split at usable
    · simpa using (Option.filter_eq_some_iff.mp usable).2
    · cases usable
  have resolvedNonempty : ∀ prefixes, resolution answers asn = some prefixes →
      prefixes ≠ [] := by
    intro prefixes resolved
    unfold resolution at resolved
    split at resolved
    · cases resolved
    · split_ifs at resolved with empty
      cases resolved
      simpa using empty
  rcases @outcome_prepareAsnPrefixes answers asn cacheDir staleAfter readable with
    ⟨state, usable, fresh, returned, unasked⟩ | ⟨stale, ends, isAsked⟩
  · refine ⟨?_, ?_, ?_, ?_⟩
    · intro loaded same
      rw [returned] at same
      cases same
      exact cacheNonempty state usable
    · intro other same _
      rw [usable] at same
      cases same
      exact ⟨returned, unasked⟩
    · intro allStale
      exact absurd (allStale state usable) fresh
    · rw [returned, usable]
      constructor
      · rintro ⟨_, failed⟩
        cases failed
      · rintro ⟨absent, _⟩
        cases absent
  -- no usable cache is fresh, so the resolver decides
  · have freshUsed : ∀ state, usableCache answers (asnCacheFile cacheDir asn) = some state →
        ¬IsStale answers staleAfter state → False := fun state usable fresh =>
      fresh (stale state usable)
    refine ⟨?_, fun state usable fresh => (freshUsed state usable fresh).elim,
      fun _ => ⟨ends, isAsked⟩, ?_⟩
    · intro loaded same
      exact prefixes_ne_nil_of_refreshEnds cacheNonempty resolvedNonempty (same ▸ ends)
    · exact failed_iff_of_refreshEnds ends

/-- A file that is no readable text is not read, and the resolver is not asked. -/
theorem exec_readAsnCacheFile_unreadable {path : String}
    (unreadable : ¬ReadableCache answers path) (asked : List AsnOp) :
    ∃ source reads, exec (asking answers) (readAsnCacheFile path) asked =
      (.failed (.cacheRead path source), asked ++ reads) ∧ .resolvePrefixes asn ∉ reads := by
  rw [readAsnCacheFile, exec_askAsn]
  obtain ⟨present, notText⟩ := not_or.mp unreadable
  cases metadata : answers (.metadata path) with
  | error source =>
    cases source with
    | notFound => exact absurd metadata present
    | alreadyExists => exact ⟨_, [.metadata path], rfl, by simp⟩
    | failed reason => exact ⟨_, [.metadata path], rfl, by simp⟩
  | ok modification =>
    cases modification with
    | error source => exact ⟨_, [.metadata path], rfl, by simp⟩
    | ok modified =>
      dsimp only
      rw [exec_askAsn]
      cases contents : readToStringWithLimit asnCacheFileReadLimit (answers (.readFile path)) with
      | ok text => exact absurd ⟨modified, text, metadata, contents⟩ notText
      | error source => exact ⟨source, [.metadata path, .readFile path], by simp, by simp⟩

/-- A file that is no readable text fails the preparation before the resolver is asked. -/
theorem prepare_fails_of_unreadable
    (unreadable : ¬ReadableCache answers (asnCacheFile cacheDir asn)) :
    ∃ source, (outcome answers (prepareAsnPrefixes asn cacheDir staleAfter true)).1 =
        .failed (.cacheRead (asnCacheFile cacheDir asn) source) ∧
      .resolvePrefixes asn ∉
        (outcome answers (prepareAsnPrefixes asn cacheDir staleAfter true)).2 := by
  obtain ⟨source, reads, failed, unasked⟩ :=
    @exec_readAsnCacheFile_unreadable answers asn _ unreadable []
  unfold outcome prepareAsnPrefixes
  rw [exec_bind, failed]
  exact ⟨source, rfl, by simpa using unasked⟩

/-- A cache that serializes is written when its two operations succeed. -/
theorem exec_writeAsnCacheFile {prefixes : List CanonicalCidr} {output : List Char}
    (accepted : serializeAsnCache prefixes = .ok output) (asked : List AsnOp)
    (created : .createDirAll cacheDir ∈
      (exec (asking answers) (writeAsnCacheFile cacheDir asn prefixes) asked).2 →
        answers (.createDirAll cacheDir) = .ok ())
    (written : .writeAtomic (asnCacheFile cacheDir asn) output ∈
      (exec (asking answers) (writeAsnCacheFile cacheDir asn prefixes) asked).2 →
        answers (.writeAtomic (asnCacheFile cacheDir asn) output) = .ok ()) :
    (exec (asking answers) (writeAsnCacheFile cacheDir asn prefixes) asked).1 = .returned () := by
  obtain ⟨_, short⟩ := serializeRemaining_eq_ok accepted (by decide)
  unfold writeAsnCacheFile at created written ⊢
  simp only [accepted] at created written ⊢
  rw [exec_askAsn] at created written ⊢
  have directory := created (asked_subset answers _ _ (by simp))
  rw [directory] at written ⊢
  dsimp only at written ⊢
  rw [if_neg (not_lt.mpr short), exec_askAsn] at written ⊢
  have file := written (asked_subset answers _ _ (by simp))
  rw [file]
  rfl

/-- When every write that was asked for succeeds, the load and the preview end in
the same way. -/
theorem load_eq_preview
    (created : ∀ path, .createDirAll path ∈
      (outcome answers (loadAsnPrefixesWithCache asn cacheDir staleAfter)).2 →
        answers (.createDirAll path) = .ok ())
    (written : ∀ path contents, .writeAtomic path contents ∈
      (outcome answers (loadAsnPrefixesWithCache asn cacheDir staleAfter)).2 →
        answers (.writeAtomic path contents) = .ok ()) :
    (outcome answers (loadAsnPrefixesWithCache asn cacheDir staleAfter)).1 =
      (outcome answers (readAsnForPreview asn cacheDir staleAfter true)).1 := by
  have preview : outcome answers (readAsnForPreview asn cacheDir staleAfter true) = _ :=
    exec_bind _ _ _
  have load : outcome answers (loadAsnPrefixesWithCache asn cacheDir staleAfter) = _ :=
    exec_bind _ _ _
  rw [preview, load]
  rw [load] at created written
  clear preview load
  generalize exec (asking answers) (prepareAsnPrefixes asn cacheDir staleAfter true) [] = prepared
    at created written ⊢
  rcases prepared with ⟨loaded | error | _, reads⟩
  · dsimp only at created written ⊢
    -- only prefixes from the network are written, and writing does not change what is returned
    by_cases network : loaded.source = .network
    · rw [if_pos network] at created written ⊢
      rw [if_pos network]
      cases accepted : serializeAsnCache loaded.prefixes with
      | error source =>
        rw [writeAsnCacheFile, accepted]
        rfl
      | ok output =>
        -- what the writing asks is asked by the whole, so its answers are the hypotheses
        have grows := asked_subset_bind answers (writeAsnCacheFile cacheDir asn loaded.prefixes)
          (fun _ => pure loaded) reads
        have writes := exec_writeAsnCacheFile accepted reads
          (fun isAsked => created _ (grows isAsked)) (fun isAsked => written _ _ (grows isAsked))
        rw [exec_bind]
        generalize exec (asking answers) (writeAsnCacheFile cacheDir asn loaded.prefixes) reads =
          after at writes ⊢
        rcases after with ⟨_ | error | _, last⟩
        · rfl
        · cases writes
        · cases writes
    · rw [if_neg network, if_neg network]
  · rfl
  · rfl

end Policy

/-- On every readable cache, whatever its text and age and whatever the resolver
answers, the policy holds; an unreadable one fails without the resolver. A cache
that serializes is read back, and it is read within the limit. When the writes
succeed, a load and a preview end in the same way. -/
theorem asnPrefixes_policy :
    (∀ (answers : AsnAnswers) (asn : ℕ) (cacheDir : String) (staleAfter : ℕ),
      (ReadableCache answers (asnCacheFile cacheDir asn) →
        PreparePolicy answers asn cacheDir staleAfter) ∧
      (¬ReadableCache answers (asnCacheFile cacheDir asn) →
        ∃ source, (outcome answers (prepareAsnPrefixes asn cacheDir staleAfter true)).1 =
            .failed (.cacheRead (asnCacheFile cacheDir asn) source) ∧
          .resolvePrefixes asn ∉
            (outcome answers (prepareAsnPrefixes asn cacheDir staleAfter true)).2)) ∧
    (∀ (prefixes : List CanonicalCidr) (text : List Char), serializeAsnCache prefixes = .ok text →
      parseCidrsFromCacheContents text = some (sortedUnique prefixes) ∧
        (encodeUtf8 text).length ≤ asnCacheFileReadLimit ∧
        readToStringWithLimit asnCacheFileReadLimit (.ok (encodeUtf8 text)) = .ok text) ∧
    ∀ (answers : AsnAnswers) (asn : ℕ) (cacheDir : String) (staleAfter : ℕ),
      (∀ path, .createDirAll path ∈
        (outcome answers (loadAsnPrefixesWithCache asn cacheDir staleAfter)).2 →
          answers (.createDirAll path) = .ok ()) →
      (∀ path contents, .writeAtomic path contents ∈
        (outcome answers (loadAsnPrefixesWithCache asn cacheDir staleAfter)).2 →
          answers (.writeAtomic path contents) = .ok ()) →
      (outcome answers (loadAsnPrefixesWithCache asn cacheDir staleAfter)).1 =
        (outcome answers (readAsnForPreview asn cacheDir staleAfter true)).1 :=
  ⟨fun _ _ _ _ => ⟨preparePolicy, prepare_fails_of_unreadable⟩,
    fun _ _ accepted => parse_serializeAsnCache accepted,
    fun _ _ _ _ created written => load_eq_preview created written⟩

theorem oneOctet_le_width : 8 ≤ 32 := by decide

/-- One prefix of a system. -/
def examplePrefixes : List CanonicalCidr :=
  [.v4 (Cidr.fromParts 0x0A000000#32 8 oneOctet_le_width)]

/-- The text of their cache. -/
def exampleCache : List Char := asnCacheFileWriteHeader ++ "\n10.0.0.0/8\n".toList

theorem serializeAsnCache_example : serializeAsnCache examplePrefixes = .ok exampleCache := by
  have shown : (CanonicalCidr.v4 (Cidr.fromParts 0x0A000000#32 8 oneOctet_le_width)).display.toList =
      "10.0.0.0/8".toList := by decide
  have short : ¬asnCacheFileReadLimit <
      byteLength (asnCacheFileWriteHeader ++ ['\n']) + byteLength "10.0.0.0/8".toList + 1 := by
    decide
  rw [serializeAsnCache, examplePrefixes, serializeRemaining]
  simp only [shown, if_neg short, serializeRemaining]
  rfl

/-- That cache, as it was written two hours ago, and a resolver that fails. -/
def staleAnswers : AsnAnswers
  | .metadata _ => .ok (.ok 0)
  | .readFile _ => .ok (encodeUtf8 exampleCache)
  | .now => 7200000000000
  | .resolvePrefixes asn => .error (.resolveFailed asn "timed out")
  | .createDirAll _ => .ok ()
  | .writeAtomic _ _ => .ok ()
  | .isCancelled => false

/-- After an hour the cache is stale. It is returned as such, after the resolver was
asked, by a load as by a preview. -/
theorem asnPrefixes_policy_stale :
    (outcome staleAnswers (prepareAsnPrefixes 64500 "/cache" 3600000000000 true)).1 =
        .returned ⟨examplePrefixes, true, .fallbackCache⟩ ∧
      .resolvePrefixes 64500 ∈
        (outcome staleAnswers (prepareAsnPrefixes 64500 "/cache" 3600000000000 true)).2 ∧
      parseCidrsFromCacheContents exampleCache = some examplePrefixes ∧
      (outcome staleAnswers (loadAsnPrefixesWithCache 64500 "/cache" 3600000000000)).1 =
        (outcome staleAnswers (readAsnForPreview 64500 "/cache" 3600000000000 true)).1 := by
  obtain ⟨policy, codec, same⟩ := asnPrefixes_policy
  obtain ⟨parsed, -, isRead⟩ := codec examplePrefixes exampleCache serializeAsnCache_example
  rw [show sortedUnique examplePrefixes = examplePrefixes by decide] at parsed
  have usable : usableCache staleAnswers (asnCacheFile "/cache" 64500) =
      some ⟨0, examplePrefixes⟩ := by
    simp [usableCache, staleAnswers, isRead, parsed, examplePrefixes]
  have readable : ReadableCache staleAnswers (asnCacheFile "/cache" 64500) :=
    Or.inr ⟨0, exampleCache, rfl, isRead⟩
  have stale : ∀ state, usableCache staleAnswers (asnCacheFile "/cache" 64500) = some state →
      IsStale staleAnswers 3600000000000 state := by
    intro state isUsable
    obtain rfl := Option.some.inj (usable.symm.trans isUsable)
    simp [IsStale, isStaleAt, staleAnswers]
  have refreshed := ((policy staleAnswers 64500 "/cache" 3600000000000).1 readable).unfresh stale
  rw [usable] at refreshed
  exact ⟨refreshed.1, refreshed.2, parsed,
    same staleAnswers 64500 "/cache" 3600000000000 (fun _ _ => rfl) fun _ _ _ => rfl⟩

/-! ### The banned systems of a synchronization -/

/-- The message of a failure. -/
def AsnError.message : AsnError → String
  | resolveFailed asn reason => s!"failed to resolve ASN {asn} prefixes via bgpq4: {reason}"
  | cacheRead path source => s!"ASN cache read failed at {path}: {IoError.text source}"
  | cacheWrite path source => s!"ASN cache write failed at {path}: {IoError.text source}"

/-- The systems whose prefixes are loaded: the configured ones and those with an
active temporary ban, in order and without repetition. -/
def asnsToLoad (context : SyncSourceContext) : List ℕ :=
  dedupAdjacent (sortUnstable
    (context.config.asn.banned ++ context.temporaryBans.activeAsns context.cutoff))

/-- The notice about prefixes of a cache that could not be refreshed. -/
def staleCacheNotice (asn : ℕ) : Notice :=
  .ofWarning s!"ASN cache refresh failed; using stale prefixes for AS{asn}"

/-- What the systems loaded so far contribute. -/
structure LoadedAsns where
  networks : List CanonicalCidr
  notices : List Notice
  observations : List SourceObservation

/-- Add the prefixes of a system. -/
def LoadedAsns.add (loaded : LoadedAsns) (asn : ℕ) (cached : CachedAsnPrefixes) : LoadedAsns where
  networks := loaded.networks ++ cached.prefixes
  notices := if cached.stale then loaded.notices ++ [staleCacheNotice asn] else loaded.notices
  observations := loaded.observations ++ [⟨s!"AS{asn}", cached.source⟩]

/-- Load the remaining systems. -/
def loadRemainingAsns (cacheDir : String) (staleAfter : ℕ) :
    List ℕ → LoadedAsns → AsnProgram AppError LoadedAsns
  | [], loaded => return loaded
  | asn :: rest, loaded => do
    if ← askAsn .isCancelled then throw .interrupted
    let cached ← (loadAsnPrefixesWithCache asn cacheDir staleAfter).mapError
      fun error => .asn error.message
    loadRemainingAsns cacheDir staleAfter rest (loaded.add asn cached)

/-- `load_asn_bans`. -/
def loadAsnBans (context : SyncSourceContext) : AsnProgram AppError SyncSourceLoad := do
  let asns := asnsToLoad context
  let observations : List SourceObservation :=
    if asns.isEmpty then [⟨"asn-bans", .disabled⟩] else []
  let loaded ← loadRemainingAsns context.paths.asnCacheDir
    (context.config.asn.cacheStaleAfterSecs * 10 ^ 9) asns ⟨[], [], observations⟩
  return ⟨⟨sortedUnique loaded.networks, loaded.notices⟩, none, [], none, loaded.observations⟩

/-- How a program ends does not depend on what was asked before. -/
theorem ending_congr {ε α : Type} (answers : AsnAnswers) (program : AsnProgram ε α)
    (asked other : List AsnOp) :
    (exec (asking answers) program asked).1 = (exec (asking answers) program other).1 := by
  induction program generalizing asked other with
  | ret value => rfl
  | fail error => rfl
  | spin => rfl
  | call op next ih => exact ih (answers op) _ _

/-- A load that returns has the prefixes of every system. -/
theorem networks_of_loadRemainingAsns {answers : AsnAnswers} {cacheDir : String}
    {staleAfter : ℕ} {asns : List ℕ} {loaded last : LoadedAsns} {asked : List AsnOp}
    (returned : (exec (asking answers) (loadRemainingAsns cacheDir staleAfter asns loaded) asked).1 =
      .returned last) :
    loaded.networks ⊆ last.networks ∧ ∀ asn ∈ asns, ∃ cached,
      (outcome answers (loadAsnPrefixesWithCache asn cacheDir staleAfter)).1 = .returned cached ∧
        cached.prefixes ⊆ last.networks := by
  induction asns generalizing loaded asked with
  | nil =>
    cases returned
    exact ⟨List.Subset.refl _, by simp⟩
  | cons asn rest ih =>
    rw [loadRemainingAsns, exec_askAsn] at returned
    cases cancelled : answers .isCancelled with
    | true =>
      rw [cancelled] at returned
      cases returned
    | false =>
      rw [cancelled] at returned
      simp only [Bool.false_eq_true, if_false] at returned
      rw [exec_bind, exec_mapError] at returned
      have first := ending_congr answers (loadAsnPrefixesWithCache asn cacheDir staleAfter)
        (asked ++ [.isCancelled]) []
      generalize exec (asking answers) (loadAsnPrefixesWithCache asn cacheDir staleAfter)
        (asked ++ [.isCancelled]) = ran at returned first
      rcases ran with ⟨cached | error | _, middle⟩
      · obtain ⟨kept, others⟩ := ih returned
        obtain ⟨keptBefore, added⟩ := List.append_subset.mp kept
        refine ⟨keptBefore, List.forall_mem_cons.mpr ⟨⟨cached, first.symm, added⟩, others⟩⟩
      · cases returned
      · cases returned

/-- The prefixes of every configured system and of every system with an active
temporary ban are candidates. -/
theorem networks_of_loadAsnBans {answers : AsnAnswers} {context : SyncSourceContext}
    {load : SyncSourceLoad} (returned : (outcome answers (loadAsnBans context)).1 = .returned load) :
    ∀ asn, (asn ∈ context.config.asn.banned ∨
        asn ∈ context.temporaryBans.activeAsns context.cutoff) → ∃ cached,
      (outcome answers (loadAsnPrefixesWithCache asn context.paths.asnCacheDir
        (context.config.asn.cacheStaleAfterSecs * 10 ^ 9))).1 = .returned cached ∧
      cached.prefixes ⊆ load.primary.networks := by
  intro asn banned
  have isLoaded : asn ∈ asnsToLoad context := by
    simpa [asnsToLoad] using banned
  unfold outcome loadAsnBans at returned
  rw [exec_bind] at returned
  cases ran : exec (asking answers) (loadRemainingAsns context.paths.asnCacheDir
      (context.config.asn.cacheStaleAfterSecs * 10 ^ 9) (asnsToLoad context)
      ⟨[], [], if (asnsToLoad context).isEmpty then [⟨"asn-bans", .disabled⟩] else []⟩) [] with
  | mk ending last =>
    rw [ran] at returned
    cases ending with
    | returned loaded =>
      obtain ⟨_, every⟩ := networks_of_loadRemainingAsns (congrArg Prod.fst ran)
      obtain ⟨cached, loads, added⟩ := every asn isLoaded
      cases returned
      exact ⟨cached, loads, fun cidr member => mem_sortedUnique.mpr (added member)⟩
    | failed error => cases returned
    | stopped => cases returned

end Kidobo
