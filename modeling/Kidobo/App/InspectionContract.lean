import Kidobo.App.Inspection

/-!
# What a verdict rests on

A check that reports a block saw, in both of its rounds, the configured set, the
canonical jump in front of INPUT, the configured rule as the only one of the
stable chain, and the address as a member. A check that reports no block saw, in
both rounds, a readable listing without any reference to a managed chain, or the
same verified path and the recognized answer that the address is no member. Both
read the same configuration before and after. The tools may answer anything.

## Main definitions

* `NamesConfiguredSet`, `BlockingPath`, `NoManagedReference`: what a text shows
* `VerifiedRound`, `UnreferencedRound`: what a round of probes saw
* `FamilyEvidence`: what an inspection rests on

## Main results

* `check_sound`: both verdicts, for every run and all answers
-/

namespace Kidobo

open Foundation

/-! ### What the texts show -/

/-- One line of the text has the property and every other line lacks it. -/
def SoleLine (contents : List Char) (holds : List Char → Prop) (line : List Char) : Prop :=
  ∃ front back, lines contents = front ++ line :: back ∧ holds line ∧
    ∀ other ∈ front ++ back, ¬holds other

/-- Exactly one line starts with the prefix, and it has this text behind it. -/
def SoleField (contents linePrefix value : List Char) : Prop :=
  ∃ text, SoleLine contents (linePrefix <+: ·) (linePrefix ++ text) ∧ trim text = value

/-- The header names the configured `hash:net` set and its address family. -/
structure NamesConfiguredSet (spec : ManagedSetSpec) (contents : List Char) : Prop where
  name : SoleField contents "Name:".toList spec.setName.toList
  kind : SoleField contents "Type:".toList "hash:net".toList
  configured : spec.setType = "hash:net"
  family : ∃ header, SoleField contents "Header:".toList header ∧
    ∀ word, ["family".toList, word] <:+: splitWhitespace header ↔
      word = (expectedFamily spec.family).toList

/-- The line jumps or goes to one of Kidobo's chains. -/
def RefersToManagedChain (line : List Char) : Prop :=
  ∃ option ∈ targetOptions, ∃ chain ∈ managedChains, [option, chain] <:+: splitWhitespace line

/-- The configured rule of the stable chain, for REJECT possibly as the listing
completes it. -/
def ConfiguredRule (spec : ManagedSetSpec) (action : FirewallAction) (rule : List Char) : Prop :=
  rule = expectedRule spec action ∨
    action = .reject ∧ rule = expectedRule spec action ++ rejectSuffix spec.family

/-- The listing shows the blocking path and nothing else about the managed chains. -/
structure BlockingPath (spec : ManagedSetSpec) (action : FirewallAction)
    (contents : List Char) : Prop where
  /-- The canonical jump is the only rule that refers to a managed chain. -/
  soleReference : SoleLine contents RefersToManagedChain canonicalJump
  /-- It is the first INPUT rule with a specification. -/
  firstInputRule : ∃ front back, lines contents = front ++ canonicalJump :: back ∧
    ∀ line ∈ front, ¬"-A INPUT ".toList <+: line
  /-- The stable chain has one rule, the configured one. -/
  soleChainRule : ∃ rule, SoleLine contents ("-A kidobo-input ".toList <+: ·) rule ∧
    ConfiguredRule spec action rule
  /-- No staging chain is declared or filled. -/
  noStaging : ∀ line ∈ lines contents,
    line ≠ "-N kidobo-input-stage".toList ∧ ¬"-A kidobo-input-stage ".toList <+: line

/-- A readable listing without any reference to a managed chain. -/
structure NoManagedReference (contents : List Char) : Prop where
  /-- Exactly one line shows the policy of INPUT. -/
  policy : ∃ line, SoleLine contents (· ∈ inputPolicies) line
  /-- Every line is one of a rule listing. -/
  readable : ∀ line ∈ lines contents, line = [] ∨
    "-P ".toList <+: line ∨ "-N ".toList <+: line ∨ "-A ".toList <+: line
  unreferenced : ∀ line ∈ lines contents, ¬RefersToManagedChain line

/-! ### Reading the tools -/

/-- The only element that a filter keeps, among the elements around it. -/
theorem exists_of_filter_eq_singleton {α : Type} {keep : α → Bool} {items : List α} {item : α}
    (kept : items.filter keep = [item]) :
    ∃ front back, items = front ++ item :: back ∧ keep item = true ∧
      ∀ other ∈ front ++ back, keep other = false := by
  obtain ⟨front, back, split, before, holds, after⟩ := List.filter_eq_cons_iff.mp kept
  refine ⟨front, back, split, holds, ?_⟩
  intro other member
  rcases List.mem_append.mp member with inFront | inBack
  · exact Bool.eq_false_iff.mpr (before other inFront)
  · exact Bool.eq_false_iff.mpr (List.filter_eq_nil_iff.mp after other inBack)

theorem soleLine_of_filter {contents line : List Char} {keep : List Char → Bool}
    {holds : List Char → Prop} (decides : ∀ text, keep text = true ↔ holds text)
    (kept : (lines contents).filter keep = [line]) : SoleLine contents holds line := by
  obtain ⟨front, back, split, isKept, others⟩ := exists_of_filter_eq_singleton kept
  refine ⟨front, back, split, (decides line).mp isKept, ?_⟩
  intro other member holdsOther
  exact Bool.eq_false_iff.mp (others other member) ((decides other).mpr holdsOther)

theorem field_eq_some {contents linePrefix value : List Char}
    (read : field contents linePrefix = some value) : SoleField contents linePrefix value := by
  unfold field at read
  split at read
  case h_2 => cases read
  case h_1 sole found =>
    obtain ⟨front, line, back, split, before, taken, after⟩ := List.filterMap_eq_cons_iff.mp found
    obtain ⟨text, stripped, rfl⟩ := Option.map_eq_some_iff.mp taken
    have shape := List.isPrefixOf?_eq_some_iff_append_eq.mp stripped
    obtain rfl : trim text = value := by
      split at read
      · cases read
      · exact Option.some.inj read
    have notPrefixed : ∀ other, (linePrefix.isPrefixOf? other).map trim = none →
        ¬linePrefix <+: other := by
      rintro other absent ⟨rest, rfl⟩
      rw [List.isPrefixOf?_eq_some_iff_append_eq.mpr rfl] at absent
      cases absent
    refine ⟨text, ⟨front, back, by rw [split, shape], List.prefix_append linePrefix text, ?_⟩, rfl⟩
    intro other member
    rcases List.mem_append.mp member with inFront | inBack
    · exact notPrefixed other (before other inFront)
    · exact notPrefixed other (List.filterMap_eq_nil_iff.mp after other inBack)

theorem refersToManagedChain_iff (line : List Char) :
    refersToManagedChain line = true ↔ RefersToManagedChain line := by
  constructor
  · intro refers
    obtain ⟨⟨option, chain⟩, adjacent, known⟩ := List.any_eq_true.mp refers
    obtain ⟨isOption, isChain⟩ := Bool.and_eq_true_iff.mp known
    exact ⟨option, List.contains_iff_mem.mp isOption, chain, List.contains_iff_mem.mp isChain,
      pair_infix_iff.mpr adjacent⟩
  · rintro ⟨option, isOption, chain, isChain, adjacent⟩
    refine List.any_eq_true.mpr ⟨(option, chain), pair_infix_iff.mp adjacent, ?_⟩
    exact Bool.and_eq_true_iff.mpr
      ⟨List.contains_iff_mem.mpr isOption, List.contains_iff_mem.mpr isChain⟩

theorem mem_headerFamilies {header word : List Char} :
    word ∈ headerFamilies header ↔ ["family".toList, word] <:+: splitWhitespace header := by
  rw [pair_infix_iff, headerFamilies, List.mem_filterMap]
  constructor
  · rintro ⟨⟨first, next⟩, adjacent, taken⟩
    dsimp only at taken
    by_cases isFamily : first = "family".toList
    · rw [if_pos isFamily] at taken
      rwa [← isFamily, ← Option.some.inj taken]
    · rw [if_neg isFamily] at taken
      cases taken
  · intro adjacent
    exact ⟨_, adjacent, if_pos rfl⟩

theorem validRule_iff (spec : ManagedSetSpec) (action : FirewallAction) (rule : List Char) :
    validRule spec action rule = true ↔ ConfiguredRule spec action rule := by
  unfold validRule ConfiguredRule
  simp only [Bool.or_eq_true, Bool.and_eq_true, beq_iff_eq,
    List.isPrefixOf?_eq_some_iff_append_eq]
  exact or_congr_right (and_congr_right fun _ => eq_comm)

/-! ### What the readers accept -/

/-- A verified header names the configured set. -/
theorem parseSetHeader_verified {spec : ManagedSetSpec} {contents : List Char}
    (verified : (parseSetHeader spec contents).state = .verified) :
    NamesConfiguredSet spec contents := by
  unfold parseSetHeader at verified
  split at verified
  case h_1 => cases verified
  case h_2 fields name kind header entries read =>
    unfold headerFields at read
    obtain ⟨someName, readName, read⟩ := Option.bind_eq_some_iff.mp read
    obtain ⟨someKind, readKind, read⟩ := Option.bind_eq_some_iff.mp read
    obtain ⟨someHeader, readHeader, read⟩ := Option.bind_eq_some_iff.mp read
    obtain ⟨count, readCount, read⟩ := Option.bind_eq_some_iff.mp read
    obtain ⟨someEntries, readEntries, read⟩ := Option.bind_eq_some_iff.mp read
    cases read
    split at verified
    case isTrue => cases verified
    case isFalse agrees =>
      simp only [not_or, not_not] at agrees
      obtain ⟨rfl, rfl, sameKind, families⟩ := agrees
      exact {
        name := field_eq_some readName
        kind := field_eq_some readKind
        configured := (String.toList_inj.mp sameKind).symm
        family := ⟨header, field_eq_some readHeader, fun word => by
          rw [← mem_headerFamilies, families, List.mem_singleton]⟩ }

/-- The lines that a reader looks at, when it ignores blank lines anyway. -/
theorem filter_listed {contents : List Char} {keep : List Char → Bool}
    (ignoresBlank : keep [] = false) :
    ((lines contents).filter fun line => !line.isEmpty).filter keep =
      (lines contents).filter keep := by
  rw [List.filter_filter]
  refine List.filter_congr fun line _ => ?_
  cases line with
  | nil => simp [ignoresBlank]
  | cons char rest => simp

theorem not_staging_of_none {contents : List Char}
    (none : ¬((lines contents).filter fun line => !line.isEmpty).any declaresStaging = true) :
    ∀ line ∈ lines contents,
      line ≠ "-N kidobo-input-stage".toList ∧ ¬"-A kidobo-input-stage ".toList <+: line := by
  intro line member
  by_cases blank : line = []
  · subst blank
    exact ⟨by simp, by simp⟩
  · have listed : line ∈ (lines contents).filter fun line => !line.isEmpty :=
      List.mem_filter.mpr ⟨member, by simpa using blank⟩
    have undeclared : declaresStaging line = false :=
      Bool.eq_false_iff.mpr fun declares => none (List.any_eq_true.mpr ⟨line, listed, declares⟩)
    obtain ⟨notDeclared, notFilled⟩ := Bool.or_eq_false_iff.mp undeclared
    exact ⟨beq_eq_false_iff_ne.mp notDeclared, fun isRule =>
      Bool.eq_false_iff.mp notFilled (List.isPrefixOf_iff_prefix.mpr isRule)⟩

theorem readable_of_wellFormed {contents : List Char}
    (wellFormed : ¬((lines contents).filter fun line => !line.isEmpty).any
      (fun line => !listsRule line) = true) :
    ∀ line ∈ lines contents, line = [] ∨
      "-P ".toList <+: line ∨ "-N ".toList <+: line ∨ "-A ".toList <+: line := by
  intro line member
  by_cases blank : line = []
  · exact Or.inl blank
  · have listed : line ∈ (lines contents).filter fun line => !line.isEmpty :=
      List.mem_filter.mpr ⟨member, by simpa using blank⟩
    have shaped : listsRule line = true := by
      by_contra unshaped
      refine wellFormed (List.any_eq_true.mpr ⟨line, listed, ?_⟩)
      rw [eq_false_of_ne_true unshaped, Bool.not_false]
    unfold listsRule at shaped
    simp only [Bool.or_eq_true, List.isPrefixOf_iff_prefix, or_assoc] at shaped
    exact Or.inr shaped

/-- The first line that a search finds, with the lines in front of it. -/
theorem firstInputRule_of_find {contents : List Char}
    (first : ((lines contents).filter fun line => !line.isEmpty).find?
      ("-A INPUT ".toList.isPrefixOf ·) = some canonicalJump) :
    ∃ front back, lines contents = front ++ canonicalJump :: back ∧
      ∀ line ∈ front, ¬"-A INPUT ".toList <+: line := by
  rw [List.find?_filter] at first
  obtain ⟨-, front, back, split, before⟩ := List.find?_eq_some_iff_append.mp first
  refine ⟨front, back, split, ?_⟩
  intro line member isRule
  have nonempty : line ≠ [] := by
    intro blank
    rw [blank] at isRule
    simp at isRule
  have skipped := before line member
  rw [List.isPrefixOf_iff_prefix.mpr isRule] at skipped
  simp [nonempty] at skipped

/-- Verified wiring is the blocking path. -/
theorem parseWiring_verified {spec : ManagedSetSpec} {action : FirewallAction}
    {contents : List Char} (verified : (parseWiring spec action contents).state = .verified) :
    BlockingPath spec action contents := by
  unfold parseWiring at verified
  dsimp only at verified
  split_ifs at verified with malformed unreferenced canonical
  case neg => cases verified
  · cases verified
  · obtain ⟨references, inputFirst, single, valid, unstaged⟩ := canonical
    have notReference : refersToManagedChain [] = false := by decide
    have notChainRule : List.isPrefixOf "-A kidobo-input ".toList [] = false := by decide
    rw [filter_listed notReference] at references
    rw [filter_listed notChainRule] at single valid
    obtain ⟨rule, sole⟩ := List.length_eq_one_iff.mp single
    rw [sole] at valid
    exact {
      soleReference := soleLine_of_filter refersToManagedChain_iff references
      firstInputRule := firstInputRule_of_find inputFirst
      soleChainRule := ⟨rule,
        soleLine_of_filter (fun line => List.isPrefixOf_iff_prefix) sole,
        (validRule_iff spec action rule).mp (by simpa using valid)⟩
      noStaging := not_staging_of_none unstaged }

/-- Absent wiring is a readable listing without references. -/
theorem parseWiring_absent {spec : ManagedSetSpec} {action : FirewallAction}
    {contents : List Char} (absent : (parseWiring spec action contents).state = .absent) :
    NoManagedReference contents := by
  unfold parseWiring at absent
  dsimp only at absent
  split_ifs at absent with malformed unreferenced canonical
  · cases absent
  · rw [not_or, not_not] at malformed
    obtain ⟨onePolicy, wellFormed⟩ := malformed
    have notPolicy : inputPolicies.contains [] = false := by decide
    have notReference : refersToManagedChain [] = false := by decide
    rw [filter_listed notPolicy] at onePolicy
    rw [filter_listed notReference] at unreferenced
    obtain ⟨policy, sole⟩ := List.length_eq_one_iff.mp onePolicy
    exact {
      policy := ⟨policy, soleLine_of_filter (fun line => List.contains_iff_mem) sole⟩
      readable := readable_of_wellFormed wellFormed
      unreferenced := by
        intro line member refers
        rw [List.isEmpty_iff, List.filter_eq_nil_iff] at unreferenced
        exact unreferenced line member ((refersToManagedChain_iff line).mpr refers) }
  · cases absent

/-! ### Rounds of probes -/

/-- A probe and its answer. -/
abbrev Probe := CommandLine × CommandResponse

/-- The probes of a transcript, in order. -/
def probesOf (told : Transcript InspectionOp InspectionOp.Result) : List Probe :=
  told.filterMap fun
    | ⟨.execute command, response⟩ => some (command, response)
    | _ => none

/-- The configurations that were read, in order. -/
def loadsOf (told : Transcript InspectionOp InspectionOp.Result) :
    List (Except AppError ValidatedConfig) :=
  told.filterMap fun
    | ⟨.loadConfig _, config⟩ => some config
    | _ => none

@[simp] theorem probesOf_nil : probesOf [] = [] := rfl

@[simp] theorem loadsOf_nil : loadsOf [] = [] := rfl

@[simp] theorem probesOf_append (first second : Transcript InspectionOp InspectionOp.Result) :
    probesOf (first ++ second) = probesOf first ++ probesOf second := List.filterMap_append

@[simp] theorem loadsOf_append (first second : Transcript InspectionOp InspectionOp.Result) :
    loadsOf (first ++ second) = loadsOf first ++ loadsOf second := List.filterMap_append

section Reads

variable {told : Transcript InspectionOp InspectionOp.Result}

@[simp] theorem loadsOf_resolvePaths (input : PathResolutionInput) (requirement : ConfigRequirement)
    (answer : Except AppError ResolvedPaths) :
    loadsOf (⟨.resolvePaths input requirement, answer⟩ :: told) = loadsOf told := rfl

@[simp] theorem probesOf_resolvePaths (input : PathResolutionInput)
    (requirement : ConfigRequirement) (answer : Except AppError ResolvedPaths) :
    probesOf (⟨.resolvePaths input requirement, answer⟩ :: told) = probesOf told := rfl

@[simp] theorem loadsOf_loadConfig (path : String) (answer : Except AppError ValidatedConfig) :
    loadsOf (⟨.loadConfig path, answer⟩ :: told) = answer :: loadsOf told := rfl

@[simp] theorem probesOf_loadConfig (path : String) (answer : Except AppError ValidatedConfig) :
    probesOf (⟨.loadConfig path, answer⟩ :: told) = probesOf told := rfl

end Reads

/-- The probe that lists the sets. -/
def namesCommand : CommandLine := ⟨"ipset", ["list", "-name"]⟩

/-- The probe that reads the header of the set. -/
def headerCommand (spec : ManagedSetSpec) : CommandLine := ⟨"ipset", ["list", spec.setName, "-terse"]⟩

/-- The probe that lists the rules. -/
def rulesCommand (spec : ManagedSetSpec) : CommandLine := ⟨familyBinary spec.family, ["-S"]⟩

/-- The probe that tests the membership. -/
def testCommand (spec : ManagedSetSpec) (target : IpAddr) : CommandLine :=
  ⟨"ipset", ["test", spec.setName, String.ofList target.text]⟩

/-- The readable rule listings of a round. -/
def rulesOf (spec : ManagedSetSpec) (round : List Probe) : List CommandResponse :=
  (round.filter fun probe => probe.1 = rulesCommand spec).map Prod.snd

/-- The round verified the set and the path and then tested the membership. -/
def VerifiedRound (spec : ManagedSetSpec) (action : FirewallAction) (target : IpAddr)
    (test : CommandResult) (round : List Probe) : Prop :=
  ∃ names header rules : CommandResult,
    round = [(namesCommand, .ok names), (headerCommand spec, .ok header),
      (rulesCommand spec, .ok rules), (testCommand spec target, .ok test)] ∧
    header.status.success = true ∧ NamesConfiguredSet spec header.stdout.toList ∧
    rules.status.success = true ∧ BlockingPath spec action rules.stdout.toList

/-- The round read one rule listing, without any reference to a managed chain. -/
def UnreferencedRound (spec : ManagedSetSpec) (round : List Probe) : Prop :=
  ∃ rules : CommandResult, rulesOf spec round = [.ok rules] ∧ rules.status.success = true ∧
    NoManagedReference rules.stdout.toList

/-- The membership test succeeded with more than the recognized nonmember line. -/
def ReportsMember (spec : ManagedSetSpec) (target : IpAddr) (test : CommandResult) : Prop :=
  test.status.success = true ∧ negativeAnswer spec target test = false

/-- The membership test exited with code 1 and just the recognized nonmember line. -/
def ReportsNonmember (spec : ManagedSetSpec) (target : IpAddr) (test : CommandResult) : Prop :=
  test.status.code = some 1 ∧ negativeAnswer spec target test = true

/-- The membership test reported this membership. -/
def TestReports (spec : ManagedSetSpec) (target : IpAddr) : Membership → CommandResult → Prop
  | .present => ReportsMember spec target
  | .absent => ReportsNonmember spec target
  | .unknown => fun _ => False

/-- The round verified the path, and its test reported this membership. -/
def TestedRound (spec : ManagedSetSpec) (action : FirewallAction) (target : IpAddr)
    (membership : Membership) (round : List Probe) : Prop :=
  ∃ test, VerifiedRound spec action target test round ∧ TestReports spec target membership test

namespace Inspection

/-- What relates the answer of a part of a round to its probes: it reads no
configuration, and the probes are as said. -/
def Probes {α : Type} (relates : α → List Probe → Prop) (program : Inspection α) : Prop :=
  Told (fun value told => loadsOf told = [] ∧ relates value (probesOf told)) program

section Probes

variable {α β : Type} {relates : α → List Probe → Prop}

@[simp] theorem probes_pure (value : α) :
    Probes relates (pure value) ↔ relates value [] := by
  simp [Probes]

theorem probes_isCancelled {next : Bool → Inspection α} (continues : ∀ cancelled, Probes relates (next cancelled)) :
    Probes relates (call .isCancelled >>= next) := continues

theorem probes_checkCancelled {next : Unit → Inspection α} (continues : Probes relates (next ())) :
    Probes relates (checkCancelled >>= next) := by
  intro cancelled
  cases cancelled with
  | true => trivial
  | false => exact continues

theorem probes_run {program : String} {args : List String}
    {next : Except String CommandResult → Inspection α}
    (continues : ∀ response : CommandResponse,
      Probes (fun value later => relates value ((⟨program, args⟩, response) :: later))
        (next (response.mapError CommandRunnerError.display))) :
    Probes relates (run program args >>= next) := continues

theorem Probes.bind {first : β → List Probe → Prop} {program : Inspection β}
    {next : β → Inspection α} (holds : Probes first program)
    (continues : ∀ value probes, first value probes →
      Probes (fun last later => relates last (probes ++ later)) (next value)) :
    Probes relates (program >>= next) := by
  refine Told.bind holds ?_
  intro value told ⟨noLoads, related⟩
  refine (continues value _ related).mono ?_
  intro last later ⟨noLaterLoads, laterRelated⟩
  simp only [loadsOf_append, probesOf_append]
  exact ⟨by rw [noLoads, noLaterLoads]; rfl, laterRelated⟩

end Probes

/-- Reading the set asks only ipset, and a verified set has its header. -/
theorem probes_inspectSet (spec : ManagedSetSpec) :
    Probes (fun set probes => (∀ probe ∈ probes, probe.1.command = "ipset") ∧
      (set.state = .verified → ∃ names header : CommandResult,
        probes = [(namesCommand, .ok names), (headerCommand spec, .ok header)] ∧
        header.status.success = true ∧ NamesConfiguredSet spec header.stdout.toList))
      (inspectSet spec) := by
  refine probes_run fun listing => ?_
  cases listing with
  | error failure =>
    refine (probes_pure _).mpr ⟨by simp, nofun⟩
  | ok names =>
    dsimp only [Except.mapError]
    split_ifs with failed unnamed
    · exact (probes_pure _).mpr ⟨by simp, nofun⟩
    · exact (probes_pure _).mpr ⟨by simp, nofun⟩
    · refine probes_isCancelled fun cancelled => ?_
      cases cancelled with
      | true => exact (probes_pure _).mpr ⟨by simp, nofun⟩
      | false =>
        refine probes_run fun response => ?_
        cases response with
        | error failure => exact (probes_pure _).mpr ⟨by simp, nofun⟩
        | ok header =>
          dsimp only [Except.mapError]
          split_ifs with succeeded
          · refine (probes_pure _).mpr ⟨by simp, ?_⟩
            intro verified
            exact ⟨names, header, rfl, succeeded, parseSetHeader_verified verified⟩
          · exact (probes_pure _).mpr ⟨by simp, nofun⟩

/-- Reading the wiring is one listing, which shows what the state says. -/
theorem probes_inspectWiring (spec : ManagedSetSpec) (action : FirewallAction) :
    Probes (fun wiring probes => ∃ listing : CommandResponse,
      probes = [(rulesCommand spec, listing)] ∧
      (wiring.state = .verified → ∃ rules : CommandResult, listing = .ok rules ∧
        rules.status.success = true ∧ BlockingPath spec action rules.stdout.toList) ∧
      (wiring.state = .absent → ∃ rules : CommandResult, listing = .ok rules ∧
        rules.status.success = true ∧ NoManagedReference rules.stdout.toList))
      (inspectWiring spec action) := by
  refine probes_run fun listing => ?_
  cases listing with
  | error failure => exact (probes_pure _).mpr ⟨_, rfl, nofun, nofun⟩
  | ok rules =>
    dsimp only [Except.mapError]
    split_ifs with succeeded
    · refine (probes_pure _).mpr ⟨_, rfl, ?_, ?_⟩
      · intro verified
        exact ⟨rules, rfl, succeeded, parseWiring_verified verified⟩
      · intro absent
        exact ⟨rules, rfl, succeeded, parseWiring_absent absent⟩
    · exact (probes_pure _).mpr ⟨_, rfl, nofun, nofun⟩

/-- A membership other than unknown is what one test reported. -/
def MembershipEvidence (spec : ManagedSetSpec) (target : IpAddr) (membership : Membership)
    (probes : List Probe) : Prop :=
  membership ≠ .unknown → ∃ test : CommandResult,
    probes = [(testCommand spec target, .ok test)] ∧ TestReports spec target membership test

theorem probes_membership (spec : ManagedSetSpec) (target : IpAddr) :
    Probes (fun answer probes => (∀ probe ∈ probes, probe.1.command = "ipset") ∧
      MembershipEvidence spec target answer.1 probes) (membership spec target) := by
  refine probes_run fun response => ?_
  cases response with
  | error failure => exact (probes_pure _).mpr ⟨by simp, fun known => absurd rfl known⟩
  | ok test =>
    dsimp only [Except.mapError]
    split_ifs with member nonmember
    · obtain ⟨succeeded, notNegative⟩ := Bool.and_eq_true_iff.mp member
      refine (probes_pure _).mpr ⟨by simp, fun _ => ⟨test, rfl, ?_⟩⟩
      exact ⟨succeeded, by simpa using notNegative⟩
    · obtain ⟨exitedOne, negative⟩ := Bool.and_eq_true_iff.mp nonmember
      refine (probes_pure _).mpr ⟨by simp, fun _ => ⟨test, rfl, ?_⟩⟩
      exact ⟨by simpa using exitedOne, negative⟩
    · exact (probes_pure _).mpr ⟨by simp, fun known => absurd rfl known⟩

theorem probes_membershipOf (spec : ManagedSetSpec) (state : Verification) (target : IpAddr) :
    Probes (fun answer probes => (∀ probe ∈ probes, probe.1.command = "ipset") ∧
      ∃ membership detail, answer = some (membership, detail) ∧
        MembershipEvidence spec target membership probes)
      (membershipOf spec state (some target)) := by
  unfold membershipOf
  split_ifs with verified
  · refine (probes_membership spec target).bind ?_
    intro answer probes ⟨onlyIpset, evidence⟩
    rw [probes_pure, List.append_nil]
    exact ⟨onlyIpset, answer.1, answer.2, rfl, evidence⟩
  · exact (probes_pure _).mpr ⟨by simp, _, _, rfl, fun known => absurd rfl known⟩

/-- The rule listing of a family is no probe of ipset. -/
theorem rulesOf_ipset {spec : ManagedSetSpec} {probes : List Probe}
    (onlyIpset : ∀ probe ∈ probes, probe.1.command = "ipset") : rulesOf spec probes = [] := by
  rw [rulesOf, List.map_eq_nil_iff, List.filter_eq_nil_iff]
  intro probe member isRules
  have command := onlyIpset probe member
  rw [of_decide_eq_true isRules] at command
  cases family : spec.family <;> simp [rulesCommand, familyBinary, family] at command

/-- What a round of probes rests on. -/
structure RoundEvidence (spec : ManagedSetSpec) (action : FirewallAction) (target : IpAddr)
    (membership : Membership) (round : Round) (probes : List Probe) : Prop where
  known : round.membership.map Prod.fst = some membership
  unreferenced : round.wiring.state = .absent → UnreferencedRound spec probes
  verified : round.set.state = .verified → round.wiring.state = .verified →
    membership ≠ .unknown → TestedRound spec action target membership probes

theorem probes_probeRound (spec : ManagedSetSpec) (action : FirewallAction) (target : IpAddr) :
    Probes (fun round probes => ∃ membership,
      RoundEvidence spec action target membership round probes)
      (probeRound spec action (some target)) := by
  refine (probes_inspectSet spec).bind ?_
  intro set setProbes ⟨setOnlyIpset, setVerified⟩
  refine probes_checkCancelled ((probes_inspectWiring spec action).bind ?_)
  intro wiring wiringProbes ⟨listing, isListing, wiringVerified, wiringAbsent⟩
  refine probes_checkCancelled ((probes_membershipOf spec set.state target).bind ?_)
  intro answer testProbes ⟨testOnlyIpset, membership, detail, isAnswer, evidence⟩
  rw [probes_pure]
  subst isListing isAnswer
  refine ⟨membership, rfl, ?_, ?_⟩
  · intro absent
    obtain ⟨rules, rfl, succeeded, unreferenced⟩ := wiringAbsent absent
    refine ⟨rules, ?_, succeeded, unreferenced⟩
    have onlyListing : rulesOf spec (setProbes ++ ([(rulesCommand spec, .ok rules)] ++ testProbes)) =
        rulesOf spec setProbes ++ (.ok rules :: rulesOf spec testProbes) := by
      simp [rulesOf]
    rw [List.append_nil, onlyListing, rulesOf_ipset setOnlyIpset, rulesOf_ipset testOnlyIpset,
      List.nil_append]
  · intro setIsVerified wiringIsVerified known
    obtain ⟨names, header, rfl, headerSucceeded, named⟩ := setVerified setIsVerified
    obtain ⟨rules, rfl, rulesSucceeded, path⟩ := wiringVerified wiringIsVerified
    obtain ⟨test, rfl, reports⟩ := evidence known
    exact ⟨test, ⟨names, header, rules, rfl, headerSucceeded, named, rulesSucceeded, path⟩, reports⟩

/-! ### Inspections -/

/-- What an inspection rests on. -/
structure FamilyEvidence (spec : ManagedSetSpec) (action : FirewallAction) (target : IpAddr)
    (inspection : FamilyInspection) (probes : List Probe) : Prop where
  unreferenced : inspection.stable = true → inspection.wiring = .absent →
    ∃ first second, probes = first ++ second ∧
      UnreferencedRound spec first ∧ UnreferencedRound spec second
  tested : inspection.stable = true → inspection.wiring = .verified →
    inspection.setState = .verified →
    ∀ membership ≠ .unknown, inspection.membership = some membership →
      ∃ first second, probes = first ++ second ∧
        TestedRound spec action target membership first ∧
        TestedRound spec action target membership second

/-- An inspection that is not stable needs no evidence. -/
theorem FamilyEvidence.of_unstable {spec : ManagedSetSpec} {action : FirewallAction}
    {target : IpAddr} {inspection : FamilyInspection} {probes : List Probe}
    (unstable : inspection.stable = false) :
    FamilyEvidence spec action target inspection probes := by
  constructor <;> intro stable <;> rw [unstable] at stable <;> cases stable

/-- Rounds that agree have the same states and the same membership. -/
theorem agrees_eq {before after : Round} (agrees : before.agrees after = true) :
    before.set = after.set ∧ before.wiring = after.wiring ∧
      before.membership.map Prod.fst = after.membership.map Prod.fst := by
  simpa [Round.agrees, and_assoc] using agrees

/-- What settles the inspection is what the first round saw. -/
theorem settled_fields (spec : ManagedSetSpec) (before : Round) :
    ((FamilyInspection.observed spec before).settled before).setState = before.set.state ∧
      ((FamilyInspection.observed spec before).settled before).wiring = before.wiring.state ∧
      ((FamilyInspection.observed spec before).settled before).membership =
        before.membership.map Prod.fst := by
  unfold FamilyInspection.settled
  dsimp only
  split_ifs <;> exact ⟨rfl, rfl, rfl⟩

theorem probes_inspectFamily (spec : ManagedSetSpec) (action : FirewallAction) (target : IpAddr) :
    Probes (FamilyEvidence spec action target) (inspectFamily spec action (some target)) := by
  refine probes_checkCancelled ?_
  split_ifs with mismatch
  · exact (probes_pure _).mpr (.of_unstable rfl)
  refine (probes_probeRound spec action target).bind ?_
  intro before first ⟨membership, firstEvidence⟩
  dsimp only
  split_ifs with unknown
  · exact (probes_pure _).mpr (.of_unstable rfl)
  refine probes_checkCancelled ((probes_probeRound spec action target).bind ?_)
  intro after second ⟨laterMembership, secondEvidence⟩
  refine probes_checkCancelled ?_
  split_ifs with agrees
  · rw [probes_pure, List.append_nil]
    obtain ⟨sameSet, sameWiring, sameMembership⟩ := agrees_eq agrees
    obtain ⟨setState, wiring, isMembership⟩ := settled_fields spec before
    obtain rfl : membership = laterMembership := by
      rw [firstEvidence.known, secondEvidence.known] at sameMembership
      exact Option.some.inj sameMembership
    constructor
    · intro _ absent
      rw [wiring] at absent
      exact ⟨first, second, rfl, firstEvidence.unreferenced absent,
        secondEvidence.unreferenced (sameWiring ▸ absent)⟩
    · intro _ isWired isSet seen known isSeen
      rw [wiring] at isWired
      rw [setState] at isSet
      rw [isMembership, firstEvidence.known] at isSeen
      obtain rfl := Option.some.inj isSeen
      exact ⟨first, second, rfl, firstEvidence.verified isSet isWired known,
        secondEvidence.verified (sameSet ▸ isSet) (sameWiring ▸ isWired) known⟩
  · exact (probes_pure _).mpr (.of_unstable rfl)

/-! ### Verdicts -/

theorem told_checkCancelled :
    Told (fun _ told => loadsOf told = [] ∧ probesOf told = []) checkCancelled := by
  intro cancelled
  cases cancelled with
  | true => trivial
  | false => exact ⟨rfl, rfl⟩

/-- A verdict survives only when the same configuration was read again. -/
theorem told_confirmConfiguration (path : String) (config : ValidatedConfig)
    (inspection : FamilyInspection) :
    Told (fun confirmed told => probesOf told = [] ∧
      (confirmed = inspection ∧ loadsOf told = [.ok config] ∨
        confirmed.classifyTarget = .unknown))
      (confirmConfiguration path config inspection) := by
  simp only [confirmConfiguration, call, Program.perform_bind]
  intro reloaded
  beta_reduce
  split
  · rename_i current
    by_cases same : current = config
    · rw [if_pos same, same]
      exact ⟨rfl, Or.inl ⟨rfl, rfl⟩⟩
    · rw [if_neg same]
      exact ⟨rfl, Or.inr rfl⟩
  · trivial
  · exact ⟨rfl, Or.inr rfl⟩

end Inspection

/-- The managed set that a configuration gives the family of an address. -/
def ValidatedConfig.specFor (config : ValidatedConfig) (target : IpAddr) : ManagedSetSpec :=
  (EnforcementPlan.fromConfig config.toConfig).specOf (Inspection.targetFamily target)

/-- Whether the configuration enables the family of an address. -/
def ValidatedConfig.Enables (config : ValidatedConfig) (target : IpAddr) : Prop :=
  (EnforcementPlan.fromConfig config.toConfig).Enforces (Inspection.targetFamily target)

theorem enables_of_enabled {config : ValidatedConfig} {target : IpAddr}
    (enabled : (decide (Inspection.targetFamily target = .ipv4) ||
      (EnforcementPlan.fromConfig config.toConfig).enableIpv6) = true) : config.Enables target := by
  cases target with
  | v4 address => trivial
  | v6 address => exact enabled

/-- Both rounds saw the blocking path and the address as a member. -/
def SeenBlocked (config : ValidatedConfig) (target : IpAddr) (probes : List Probe) : Prop :=
  ∃ first second, probes = first ++ second ∧
    TestedRound (config.specFor target) config.ipset.chainAction target .present first ∧
    TestedRound (config.specFor target) config.ipset.chainAction target .present second

/-- Each round saw no reference to a managed chain, or the blocking path and the
address as no member. -/
def SeenNotBlocked (config : ValidatedConfig) (target : IpAddr) (probes : List Probe) : Prop :=
  ∃ first second, probes = first ++ second ∧ ∀ round ∈ [first, second],
    UnreferencedRound (config.specFor target) round ∨
      TestedRound (config.specFor target) config.ipset.chainAction target .absent round

/-- What the verdict about an address rests on. -/
structure VerdictEvidence (target : IpAddr) (verdict : CheckVerdict)
    (told : Transcript InspectionOp InspectionOp.Result) : Prop where
  blocked : verdict = .blocked → ∃ config, loadsOf told = [.ok config, .ok config] ∧
    config.Enables target ∧ SeenBlocked config target (probesOf told)
  notBlocked : verdict = .notBlocked → ∃ config, loadsOf told = [.ok config, .ok config] ∧
    SeenNotBlocked config target (probesOf told)

/-- An unknown verdict needs no evidence. -/
theorem VerdictEvidence.unknown (target : IpAddr)
    (told : Transcript InspectionOp InspectionOp.Result) :
    VerdictEvidence target .unknown told := ⟨nofun, nofun⟩

namespace FamilyInspection

theorem classifyTarget_blocked {inspection : FamilyInspection}
    (verdict : inspection.classifyTarget = .blocked) :
    inspection.stable = true ∧ inspection.enforcement ≠ .unknown ∧
      inspection.wiring = .verified ∧ inspection.setState = .verified ∧
      inspection.membership = some .present := by
  unfold classifyTarget at verdict
  split_ifs at verdict with inconclusive
  rw [Bool.or_eq_true, not_or] at inconclusive
  obtain ⟨isStable, isKnown⟩ := inconclusive
  have known : inspection.enforcement ≠ .unknown := by simpa using isKnown
  split at verdict
  case h_1 wired isSet member => exact ⟨by simpa using isStable, known, wired, isSet, member⟩
  all_goals cases verdict

theorem classifyTarget_notBlocked {inspection : FamilyInspection}
    (verdict : inspection.classifyTarget = .notBlocked) :
    inspection.stable = true ∧ (inspection.wiring = .absent ∨ inspection.wiring = .verified ∧
      inspection.setState = .verified ∧ inspection.membership = some .absent) := by
  unfold classifyTarget at verdict
  split_ifs at verdict with inconclusive
  rw [Bool.or_eq_true, not_or] at inconclusive
  have isStable : inspection.stable = true := by simpa using inconclusive.1
  split at verdict
  case h_2 absent => exact ⟨isStable, Or.inl absent⟩
  case h_3 wired isSet nonmember => exact ⟨isStable, Or.inr ⟨wired, isSet, nonmember⟩⟩
  all_goals cases verdict

/-- The configuration decides only about the enforcement. -/
theorem applyConfiguration_fields (inspection : FamilyInspection) (enabled : Bool) :
    (inspection.applyConfiguration enabled).stable = inspection.stable ∧
      (inspection.applyConfiguration enabled).wiring = inspection.wiring ∧
      (inspection.applyConfiguration enabled).setState = inspection.setState ∧
      (inspection.applyConfiguration enabled).membership = inspection.membership ∧
      (enabled = false → inspection.wiring = .verified →
        (inspection.applyConfiguration enabled).enforcement = .unknown) := by
  unfold applyConfiguration
  dsimp only
  split_ifs with disabled
  · exact ⟨rfl, rfl, rfl, rfl, fun _ _ => rfl⟩
  · refine ⟨rfl, rfl, rfl, rfl, ?_⟩
    intro isDisabled wired
    rw [isDisabled, wired] at disabled
    exact absurd rfl disabled

end FamilyInspection

/-- The verdict about a configured inspection rests on what the inspection saw. -/
theorem verdictEvidence_of_inspection {config : ValidatedConfig} {target : IpAddr}
    {inspection : FamilyInspection} {enabled : Bool}
    {told : Transcript InspectionOp InspectionOp.Result}
    (sameConfig : loadsOf told = [.ok config, .ok config])
    (isEnabled : enabled = true → config.Enables target)
    (evidence : Inspection.FamilyEvidence (config.specFor target) config.ipset.chainAction target
      inspection (probesOf told)) :
    VerdictEvidence target (inspection.applyConfiguration enabled).classifyTarget told := by
  obtain ⟨stable, wiring, setState, membership, disabled⟩ :=
    inspection.applyConfiguration_fields enabled
  constructor
  · intro verdict
    obtain ⟨isStable, enforced, wired, isSet, member⟩ :=
      FamilyInspection.classifyTarget_blocked verdict
    rw [stable] at isStable
    rw [wiring] at wired
    rw [setState] at isSet
    rw [membership] at member
    refine ⟨config, sameConfig, isEnabled ?_, evidence.tested isStable wired isSet .present nofun member⟩
    by_contra notEnabled
    exact enforced (disabled (eq_false_of_ne_true notEnabled) wired)
  · intro verdict
    obtain ⟨isStable, path⟩ := FamilyInspection.classifyTarget_notBlocked verdict
    rw [stable] at isStable
    rw [wiring, setState, membership] at path
    refine ⟨config, sameConfig, ?_⟩
    rcases path with absent | ⟨wired, isSet, nonmember⟩
    · obtain ⟨first, second, split, before, after⟩ := evidence.unreferenced isStable absent
      exact ⟨first, second, split, by simpa using ⟨Or.inl before, Or.inl after⟩⟩
    · obtain ⟨first, second, split, before, after⟩ :=
        evidence.tested isStable wired isSet .absent nofun nonmember
      exact ⟨first, second, split, by simpa using ⟨Or.inr before, Or.inr after⟩⟩

namespace Inspection

/-- Whatever is answered, a verdict has its evidence. -/
theorem told_check (request : CheckRequest) :
    Told (fun report told => VerdictEvidence request.target report.verdict told)
      (check request) := by
  refine Told.bind told_checkCancelled ?_
  intro _ start ⟨startLoads, startProbes⟩
  simp only [call, Program.perform_bind]
  intro resolved
  cases resolved with
  | error failure => trivial
  | ok paths =>
    simp only [Program.ofExcept, Program.ret_bind]
    intro loaded
    beta_reduce
    split
    · trivial
    · exact .unknown request.target _
    · rename_i config
      refine Told.bind (probes_inspectFamily _ _ _) ?_
      intro inspection told ⟨noLoads, evidence⟩
      refine Told.bind told_checkCancelled ?_
      intro _ middle ⟨middleLoads, middleProbes⟩
      refine Told.bind (told_confirmConfiguration _ config _) ?_
      intro confirmed reread ⟨rereadProbes, confirmation⟩
      refine Told.bind told_checkCancelled ?_
      intro _ finish ⟨finishLoads, finishProbes⟩
      -- only a configuration that is read again unchanged admits a verdict
      rcases confirmation with ⟨rfl, rereadLoads⟩ | unknown
      · refine @verdictEvidence_of_inspection config _ inspection _ _ ?_ ?_ ?_
        · simp [startLoads, noLoads, middleLoads, rereadLoads, finishLoads]
        · exact fun enabled => enables_of_enabled enabled
        · have onlyInspection : ∀ loaded, probesOf
              (start ++ ⟨.resolvePaths request.paths .optional, .ok paths⟩ ::
                ⟨.loadConfig paths.configFile, loaded⟩ ::
                  (told ++ (middle ++ (reread ++ (finish ++ []))))) = probesOf told := by
            intro loaded
            simp [startProbes, middleProbes, rereadProbes, finishProbes]
          rw [onlyInspection]
          exact evidence
      · change VerdictEvidence request.target confirmed.classifyTarget _
        rw [unknown]
        exact .unknown request.target _

end Inspection

/-- Soundness of the verdict: for every run, whatever the tools and the
configuration repository answer, a verdict has its evidence in both rounds. -/
theorem check_sound {State : Type} {step : Step InspectionOp InspectionOp.Result State}
    {request : CheckRequest} {state last : State}
    {trace : List (Event InspectionOp InspectionOp.Result State)} {report : CheckReport}
    (ran : Runs step (Inspection.check request) state trace last (.returned report)) :
    VerdictEvidence request.target report.verdict (transcript trace) :=
  (Inspection.told_check request).sound ran

/-- What the tools print about an enforced set with one address in it. -/
def enforcedAnswer (config : ValidatedConfig) : (op : InspectionOp) → op.Result
  | .isCancelled => false
  | .resolvePaths _ _ => .ok systemPaths
  | .loadConfig _ => .ok config
  | .execute command =>
    if command = namesCommand then .ok ⟨.exited 0, "kidobo\n", ""⟩
    else if command.args.head? = some "list" then
      .ok ⟨.exited 0,
        "Name: kidobo\nType: hash:net\nHeader: family inet\nNumber of entries: 1\n", ""⟩
    else if command.args = ["-S"] then
      .ok ⟨.exited 0, "-P INPUT ACCEPT\n-A INPUT -j kidobo-input\n" ++
        "-A kidobo-input -m set --match-set kidobo src -j DROP\n", ""⟩
    else .ok ⟨.exited 0, "", "192.0.2.1 is in set kidobo.\n"⟩

/-- An enforced address is reported as blocked, with its evidence. -/
theorem check_sound_enforced :
    ∃ config : ValidatedConfig, ∃ probes, config.Enables (.v4 3221225985) ∧
      SeenBlocked config (.v4 3221225985) probes := by
  let config : ValidatedConfig :=
    { minimalConfig [] with
      githubMetaUrl := "https://api.github.com/meta"
      githubMetaCategories := none
      timeoutSecs := 30 }
  let handler : Handler InspectionOp InspectionOp.Result Unit :=
    fun state op => (enforcedAnswer config op, state)
  let request : CheckRequest := ⟨⟨none, "/tmp", []⟩, .v4 3221225985⟩
  have checked : returnsWith (fun report _ => report.verdict == .blocked)
      (exec handler (Inspection.check request) ()) = true := by decide +kernel
  obtain ⟨report, last, ran, blocked⟩ := returnsWith_eq_true.mp checked
  have answered : ∀ (state : Unit) (op : InspectionOp),
      enforcedAnswer config op = (handler state op).1 := fun _ _ => rfl
  obtain ⟨trace, runs⟩ := @exists_runs_of_exec _ _ _ _ _
    (fun _ op result _ => enforcedAnswer config op = result) handler answered _ _ _ _ ran
  obtain ⟨read, _, enables, seen⟩ := (check_sound runs).blocked (beq_iff_eq.mp blocked)
  exact ⟨read, _, enables, seen⟩

end Kidobo
