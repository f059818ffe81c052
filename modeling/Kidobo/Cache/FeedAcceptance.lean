import Kidobo.Cache.RemoteFeed
import Kidobo.Network.RoundTrip

/-!
# Which feeds are accepted

A feed is counted while it is read, and rejected as soon as a count passes its
limit. Counts only grow, so what decides is the feed as a whole. The networks of
an accepted feed are written one in a line, and that text is accepted again.

## Main definitions

* `isDataLine`, `lineNetwork`: what a line contributes
* `feedDataLines`, `feedNetworks`: what a feed contributes
* `feedStep`: a line without the limits

## Main results

* `readFeedLines_eq_ok_iff`: reading with limits is reading without, and comparing at the end
* `parseRemoteCidrsBounded_acceptance`
-/

namespace Kidobo

open Foundation

/-! ### Reading without limits -/

/-- Whether a line of a feed counts. -/
def isDataLine (line : List Char) : Bool :=
  !((feedLine line).isEmpty || (feedLine line).head? == some '#')

/-- The network of a data line. -/
def lineNetwork (line : List Char) : Option CanonicalCidr :=
  (firstToken (feedLine line)).bind parseIpCidrNonStrict

/-- The lines of a feed that count. -/
def feedDataLines (raw : Bytes) : List (List Char) := (lines (fromUtf8Lossy raw)).filter isDataLine

/-- The networks of a feed, in its order and as often as they occur. -/
def feedNetworks (raw : Bytes) : List CanonicalCidr := (feedDataLines raw).filterMap lineNetwork

/-- The counts are within the limits. -/
def FeedProgress.Within (limits : RemoteFeedLimits) (progress : FeedProgress) : Prop :=
  progress.dataLines ≤ limits.dataLines ∧ progress.parsed.keys.length ≤ limits.uniqueCidrs

/-- Read one data line. -/
def feedStep (progress : FeedProgress) (line : List Char) : FeedProgress :=
  match lineNetwork line with
  | some cidr =>
    { progress with
      parsed := progress.parsed.insert cidr ()
      dataLines := progress.dataLines + 1 }
  | none =>
    { progress with
      dataLines := progress.dataLines + 1
      invalidLines := progress.invalidLines + if (firstToken (feedLine line)).isSome then 1 else 0 }

theorem dataLines_foldl_feedStep (read : List (List Char)) (progress : FeedProgress) :
    (read.foldl feedStep progress).dataLines = progress.dataLines + read.length := by
  induction read generalizing progress with
  | nil => rfl
  | cons line rest ih =>
    have counted : (feedStep progress line).dataLines = progress.dataLines + 1 := by
      unfold feedStep
      split <;> rfl
    rw [List.foldl_cons, ih, counted, List.length_cons]
    omega

theorem mem_keys_foldl_feedStep {read : List (List Char)} {progress : FeedProgress}
    {cidr : CanonicalCidr} :
    cidr ∈ (read.foldl feedStep progress).parsed.keys ↔
      cidr ∈ progress.parsed.keys ∨ cidr ∈ read.filterMap lineNetwork := by
  induction read generalizing progress with
  | nil => simp
  | cons line rest ih =>
    rw [List.foldl_cons, ih, List.filterMap_cons]
    unfold feedStep
    cases lineNetwork line with
    | none => rfl
    | some network =>
      simp only [SortedMap.mem_keys_insert, List.mem_cons]
      tauto

/-- Reading on never takes a network away. -/
theorem length_keys_le_foldl (read : List (List Char)) (progress : FeedProgress) :
    progress.parsed.keys.length ≤ (read.foldl feedStep progress).parsed.keys.length := by
  apply List.Subperm.length_le
  refine List.subperm_of_subset progress.parsed.nodup_keys ?_
  intro cidr member
  exact mem_keys_foldl_feedStep.mpr (Or.inl member)

theorem FeedProgress.Within.of_foldl {limits : RemoteFeedLimits} {read : List (List Char)}
    {progress : FeedProgress} (within : (read.foldl feedStep progress).Within limits) :
    progress.Within limits := by
  obtain ⟨linesWithin, networksWithin⟩ := within
  rw [dataLines_foldl_feedStep] at linesWithin
  have fewer := length_keys_le_foldl read progress
  exact ⟨by omega, fewer.trans networksWithin⟩

/-! ### Reading within limits -/

/-- A line that counts is read as without limits, unless a count passes its limit. -/
theorem readFeedLines_cons {limits : RemoteFeedLimits} {line : List Char}
    {rest : List (List Char)} {progress final : FeedProgress} (isData : isDataLine line = true)
    (within : progress.Within limits) :
    readFeedLines limits (line :: rest) progress = .ok final ↔
      (feedStep progress line).Within limits ∧
        readFeedLines limits rest (feedStep progress line) = .ok final := by
  obtain ⟨_, networksWithin⟩ := within
  have counts : ((feedLine line).isEmpty || (feedLine line).head? == some '#') = false := by
    simpa [isDataLine] using isData
  rw [readFeedLines]
  simp only [counts, feedStep, lineNetwork, FeedProgress.Within]
  rw [if_neg Bool.false_ne_true]
  by_cases tooMany : limits.dataLines < progress.dataLines + 1
  · rw [if_pos tooMany]
    constructor
    · rintro ⟨⟩
    · rintro ⟨linesWithin, _⟩
      exfalso
      split at linesWithin <;> simp only at linesWithin <;> omega
  · rw [if_neg tooMany]
    have linesWithin : progress.dataLines + 1 ≤ limits.dataLines := not_lt.mp tooMany
    cases firstToken (feedLine line) with
    | none => simp [linesWithin, networksWithin]
    | some token =>
      simp only [Option.bind_some, Option.isSome_some, if_true]
      cases parseIpCidrNonStrict token with
      | none => simp [linesWithin, networksWithin]
      | some cidr =>
        simp only [SortedMap.keys, List.length_map]
        by_cases tooManyNetworks :
            limits.uniqueCidrs < (progress.parsed.insert cidr ()).entries.length
        · simp [tooManyNetworks, Nat.not_le.mpr tooManyNetworks]
        · simp [tooManyNetworks, linesWithin, Nat.not_lt.mp tooManyNetworks]

/-- Reading with limits is reading without, and comparing at the end. -/
theorem readFeedLines_eq_ok_iff {limits : RemoteFeedLimits} {read : List (List Char)}
    {progress final : FeedProgress} (within : progress.Within limits) :
    readFeedLines limits read progress = .ok final ↔
      final = (read.filter isDataLine).foldl feedStep progress ∧ final.Within limits := by
  induction read generalizing progress with
  | nil =>
    simp only [readFeedLines, Except.ok.injEq, List.filter_nil, List.foldl_nil]
    constructor
    · rintro rfl
      exact ⟨rfl, within⟩
    · rintro ⟨rfl, _⟩
      rfl
  | cons line rest ih =>
    by_cases isData : isDataLine line = true
    · rw [readFeedLines_cons isData within, List.filter_cons_of_pos isData, List.foldl_cons]
      constructor
      · rintro ⟨stepWithin, reads⟩
        exact (ih stepWithin).mp reads
      · rintro ⟨rfl, finalWithin⟩
        have stepWithin := finalWithin.of_foldl
        exact ⟨stepWithin, (ih stepWithin).mpr ⟨rfl, finalWithin⟩⟩
    · have skipped : ((feedLine line).isEmpty || (feedLine line).head? == some '#') = true := by
        rw [isDataLine, Bool.not_eq_true'] at isData
        exact Bool.not_eq_false _ ▸ isData
      rw [readFeedLines, List.filter_cons_of_neg isData]
      simp only [skipped, if_true]
      exact ih within

/-! ### Accepted feeds -/

section Feed

variable {raw : Bytes} {limits : RemoteFeedLimits} {parsed : ParsedRemoteCidrs}

/-- What is read of a whole feed. -/
def feedProgress (raw : Bytes) : FeedProgress := (feedDataLines raw).foldl feedStep ⟨.empty, 0, 0⟩

theorem mem_keys_feedProgress {cidr : CanonicalCidr} :
    cidr ∈ (feedProgress raw).parsed.keys ↔ cidr ∈ feedNetworks raw := by
  rw [feedProgress, mem_keys_foldl_feedStep, feedNetworks]
  simp [SortedMap.keys, SortedMap.empty]

theorem feedProgress_within_iff :
    (feedProgress raw).Within limits ↔ (feedDataLines raw).length ≤ limits.dataLines ∧
      (feedNetworks raw).toFinset.card ≤ limits.uniqueCidrs := by
  have sameNetworks : (feedProgress raw).parsed.keys.toFinset = (feedNetworks raw).toFinset := by
    ext cidr
    simp only [List.mem_toFinset]
    exact mem_keys_feedProgress
  have counted := List.toFinset_card_of_nodup (feedProgress raw).parsed.nodup_keys
  rw [FeedProgress.Within, ← sameNetworks, counted, feedProgress, dataLines_foldl_feedStep]
  simp

theorem parseRemoteCidrsBounded_eq_ok_iff :
    parseRemoteCidrsBounded raw limits = .ok parsed ↔
      (feedProgress raw).Within limits ∧
        parsed = ⟨(feedProgress raw).parsed.keys, (feedProgress raw).dataLines,
          (feedProgress raw).invalidLines⟩ := by
  have initially : (⟨.empty, 0, 0⟩ : FeedProgress).Within limits :=
    ⟨Nat.zero_le _, Nat.zero_le _⟩
  have read := fun final => @readFeedLines_eq_ok_iff limits (lines (fromUtf8Lossy raw)) _ final initially
  rw [parseRemoteCidrsBounded]
  constructor
  · intro accepted
    cases reads : readFeedLines limits (lines (fromUtf8Lossy raw)) ⟨.empty, 0, 0⟩ with
    | error budget =>
      rw [reads] at accepted
      cases accepted
    | ok final =>
      rw [reads] at accepted
      obtain ⟨rfl, within⟩ := (read final).mp reads
      exact ⟨within, (Except.ok.inj accepted).symm⟩
  · rintro ⟨within, rfl⟩
    rw [(read (feedProgress raw)).mpr ⟨rfl, within⟩]
    rfl

theorem exists_parsed_iff :
    (∃ parsed, parseRemoteCidrsBounded raw limits = .ok parsed) ↔
      (feedProgress raw).Within limits := by
  simp only [parseRemoteCidrsBounded_eq_ok_iff]
  constructor
  · rintro ⟨_, within, _⟩
    exact within
  · intro within
    exact ⟨_, within, rfl⟩

/-- The networks of an accepted feed stand in ascending order. -/
theorem networks_ascending (accepted : parseRemoteCidrsBounded raw limits = .ok parsed) :
    parsed.networks.Pairwise (· < ·) := by
  obtain ⟨_, rfl⟩ := parseRemoteCidrsBounded_eq_ok_iff.mp accepted
  exact (feedProgress raw).parsed.ascending

theorem mem_networks_iff (accepted : parseRemoteCidrsBounded raw limits = .ok parsed)
    {cidr : CanonicalCidr} : cidr ∈ parsed.networks ↔ cidr ∈ feedNetworks raw := by
  obtain ⟨_, rfl⟩ := parseRemoteCidrsBounded_eq_ok_iff.mp accepted
  exact mem_keys_feedProgress

end Feed

/-! ### The normalized text -/

/-- The bytes of a text are its encoding. -/
theorem utf8_eq_encodeUtf8 (text : String) : utf8 text = encodeUtf8 text.toList :=
  toUTF8_eq_encodeUtf8 text

/-- A printed network stands as it is in a feed. -/
theorem feedLine_display (cidr : CanonicalCidr) :
    feedLine cidr.display.toList = cidr.display.toList := by
  have noMark : ∀ char ∈ cidr.display.toList, (char == '\uFEFF') = false := by
    intro char member
    have small := (ascii_display cidr char member).1
    apply beq_eq_false_iff_ne.mpr
    rintro rfl
    exact absurd small (by decide)
  have kept : cidr.display.toList.dropWhile (· == '\uFEFF') = cidr.display.toList := by
    cases shown : cidr.display.toList with
    | nil => rfl
    | cons first rest =>
      rw [List.dropWhile_cons_of_neg]
      simp [noMark first (shown ▸ List.mem_cons_self)]
  rw [feedLine, kept, trim_display]

theorem isDataLine_display (cidr : CanonicalCidr) : isDataLine cidr.display.toList = true := by
  have noComment : cidr.display.toList.head? ≠ some '#' := by
    intro isFirst
    exact (plain_display cidr '#' (List.mem_of_mem_head? isFirst)).2 rfl
  rw [isDataLine, feedLine_display]
  simp [noComment, display_ne_nil cidr]

theorem lineNetwork_display (cidr : CanonicalCidr) :
    lineNetwork cidr.display.toList = some cidr := by
  have noComma : splitOnce ',' cidr.display.toList = none := by
    have passes : ∀ char ∈ cidr.display.toList, decide (char ≠ ',') = true := by
      intro char member
      exact decide_eq_true (ascii_display cidr char member).2
    rw [splitOnce, List.dropWhile_eq_nil_iff.mpr passes]
  have notEmpty : cidr.display.toList.isEmpty = false := by simpa using display_ne_nil cidr
  rw [lineNetwork, feedLine_display, firstToken, noComma]
  simp only [Option.map_none, Option.getD_none, splitWhitespace_display, List.head?_cons,
    Option.bind_some]
  rw [parseIpCidrNonStrict, splitWhitespace_display]
  simp only [trim_display, notEmpty]
  exact parseIpCidrToken_display cidr

/-- The lines of the normalized text. -/
theorem lines_formatNormalizedCidrs (cidrs : List CanonicalCidr) :
    lines (formatNormalizedCidrs cidrs).toList =
      cidrs.map fun cidr => cidr.display.toList := by
  have shown : ∀ line ∈ cidrs.map (fun cidr => cidr.display.toList),
      ∃ cidr : CanonicalCidr, cidr.display.toList = line := by
    intro line member
    obtain ⟨cidr, _, same⟩ := List.mem_map.mp member
    exact ⟨cidr, same⟩
  rw [formatNormalizedCidrs, String.toList_intercalate, List.map_map]
  apply lines_intercalate
  · intro line member
    obtain ⟨cidr, rfl⟩ := shown line member
    intro feed
    exact absurd (plain_display cidr '\n' feed).1 (by decide)
  · intro line member
    obtain ⟨cidr, rfl⟩ := shown line member
    exact display_ne_nil cidr
  · intro line member
    obtain ⟨cidr, rfl⟩ := shown line member
    rw [stripCarriageReturn, if_neg]
    intro isLast
    exact absurd (plain_display cidr '\r' (List.mem_of_mem_getLast? isLast)).1 (by decide)

/-- The normalized text holds its networks, one in a line. -/
theorem feedDataLines_format (cidrs : List CanonicalCidr) :
    feedDataLines (utf8 (formatNormalizedCidrs cidrs)) =
      cidrs.map fun cidr => cidr.display.toList := by
  rw [feedDataLines, utf8_eq_encodeUtf8, fromUtf8Lossy_encodeUtf8, lines_formatNormalizedCidrs,
    List.filter_eq_self]
  intro line member
  obtain ⟨cidr, _, rfl⟩ := List.mem_map.mp member
  exact isDataLine_display cidr

theorem feedNetworks_format (cidrs : List CanonicalCidr) :
    feedNetworks (utf8 (formatNormalizedCidrs cidrs)) = cidrs := by
  rw [feedNetworks, feedDataLines_format, List.filterMap_map]
  have readBack : lineNetwork ∘ (fun cidr : CanonicalCidr => cidr.display.toList) = some := by
    funext cidr
    exact lineNetwork_display cidr
  rw [readBack, List.filterMap_some]

/-- Ascending networks within the limits are read back from their text. -/
theorem parseCachedIplistBounded_format {cidrs : List CanonicalCidr} {limits : RemoteFeedLimits}
    (ascending : cidrs.Pairwise (· < ·)) (fewLines : cidrs.length ≤ limits.dataLines)
    (fewNetworks : cidrs.length ≤ limits.uniqueCidrs) :
    parseCachedIplistBounded (utf8 (formatNormalizedCidrs cidrs)) limits = .ok cidrs := by
  have within : (feedProgress (utf8 (formatNormalizedCidrs cidrs))).Within limits := by
    rw [feedProgress_within_iff, feedDataLines_format, feedNetworks_format, List.length_map]
    exact ⟨fewLines, (List.toFinset_card_le cidrs).trans fewNetworks⟩
  obtain ⟨parsed, accepted⟩ := exists_parsed_iff.mpr within
  have same : parsed.networks = cidrs := by
    apply List.Pairwise.eq_of_mem_iff (networks_ascending accepted) ascending
    intro cidr
    rw [mem_networks_iff accepted, feedNetworks_format]
  rw [parseCachedIplistBounded, accepted, ← same]
  rfl

/-- The limits that a set size gives leave a line for every network. -/
theorem RemoteFeedLimits.uniqueCidrs_le_dataLines (maxelem : ℕ) :
    (RemoteFeedLimits.fromMaxelem maxelem).uniqueCidrs ≤
      (RemoteFeedLimits.fromMaxelem maxelem).dataLines :=
  max_le_max (by decide) le_rfl

/-! ### Acceptance -/

/-- The lines of one feed are those of the other in some order. -/
def SameLines (raw other : Bytes) : Prop := (lines (fromUtf8Lossy raw)).Perm (lines (fromUtf8Lossy other))

/-- Whether a feed is accepted, and its networks, do not depend on the order of lines. -/
theorem SameLines.parsed {raw other : Bytes} {limits : RemoteFeedLimits}
    {parsed : ParsedRemoteCidrs} (sameLines : SameLines raw other)
    (accepted : parseRemoteCidrsBounded raw limits = .ok parsed) :
    ∃ otherParsed, parseRemoteCidrsBounded other limits = .ok otherParsed ∧
      otherParsed.networks = parsed.networks := by
  have sameData : (feedDataLines raw).Perm (feedDataLines other) := sameLines.filter isDataLine
  have sameNetworks : (feedNetworks raw).Perm (feedNetworks other) := sameData.filterMap lineNetwork
  have within := (feedProgress_within_iff.mp (exists_parsed_iff.mp ⟨parsed, accepted⟩))
  rw [sameData.length_eq, List.toFinset_eq_of_perm _ _ sameNetworks] at within
  obtain ⟨otherParsed, otherAccepted⟩ := exists_parsed_iff.mpr (feedProgress_within_iff.mpr within)
  refine ⟨otherParsed, otherAccepted, ?_⟩
  apply List.Pairwise.eq_of_mem_iff (networks_ascending otherAccepted) (networks_ascending accepted)
  intro cidr
  rw [mem_networks_iff otherAccepted, mem_networks_iff accepted, sameNetworks.mem_iff]

/-- The normalized text of an accepted feed is accepted again, with the same networks. -/
theorem parseCachedIplistBounded_accepted {maxelem : ℕ} {raw : Bytes} {parsed : ParsedRemoteCidrs}
    (accepted : parseRemoteCidrsBounded raw (.fromMaxelem maxelem) = .ok parsed) :
    parseCachedIplistBounded (utf8 (formatNormalizedCidrs parsed.networks))
      (.fromMaxelem maxelem) = .ok parsed.networks := by
  have ascending := networks_ascending accepted
  have fewNetworks : parsed.networks.length ≤ (RemoteFeedLimits.fromMaxelem maxelem).uniqueCidrs := by
    obtain ⟨within, rfl⟩ := parseRemoteCidrsBounded_eq_ok_iff.mp accepted
    exact within.2
  have fewLines := fewNetworks.trans (RemoteFeedLimits.uniqueCidrs_le_dataLines maxelem)
  exact parseCachedIplistBounded_format ascending fewLines fewNetworks

/-- A feed is accepted if and only if its data lines and its distinct networks
are within the limits, in whatever order its lines stand; its networks are then
those of its lines, ascending. What a set size accepts is accepted again from
the normalized text. -/
theorem parseRemoteCidrsBounded_acceptance :
    (∀ raw limits, (∃ parsed, parseRemoteCidrsBounded raw limits = .ok parsed) ↔
      (feedDataLines raw).length ≤ limits.dataLines ∧
        (feedNetworks raw).toFinset.card ≤ limits.uniqueCidrs) ∧
    (∀ raw limits parsed, parseRemoteCidrsBounded raw limits = .ok parsed →
      parsed.networks.Pairwise (· < ·) ∧
        ∀ cidr, cidr ∈ parsed.networks ↔ cidr ∈ feedNetworks raw) ∧
    (∀ raw other limits parsed, SameLines raw other →
      parseRemoteCidrsBounded raw limits = .ok parsed →
        ∃ otherParsed, parseRemoteCidrsBounded other limits = .ok otherParsed ∧
          otherParsed.networks = parsed.networks) ∧
    (∀ maxelem raw parsed, parseRemoteCidrsBounded raw (.fromMaxelem maxelem) = .ok parsed →
      parseCachedIplistBounded (utf8 (formatNormalizedCidrs parsed.networks))
        (.fromMaxelem maxelem) = .ok parsed.networks) := by
  refine ⟨fun raw limits => ?_, fun raw limits parsed accepted => ?_,
    fun raw other limits parsed sameLines accepted => sameLines.parsed accepted,
    fun maxelem raw parsed accepted => parseCachedIplistBounded_accepted accepted⟩
  · rw [exists_parsed_iff, feedProgress_within_iff]
  · exact ⟨networks_ascending accepted, fun cidr => mem_networks_iff accepted⟩

end Kidobo
