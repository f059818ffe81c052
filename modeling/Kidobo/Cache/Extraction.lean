import Mathlib
import Kidobo.Cache.GithubMeta

/-!
# What is taken of a GitHub document

The document is walked with a queue. What is found are the strings anywhere
below the selected values, wherever they stand; a document in which nothing is
found counts only when there was nothing to find.

## Main definitions

* `Json.Within`: a value at some depth of another one
* `IsSelected`, `SelectionPresent`: the parts of a document that are searched
* `Mentions`: a network that a string of the selected parts denotes

## Main results

* `mem_collectNetworks`, `isEmptyContainerTree_iff`: both walks by what stands within
* `parseAndExtractNetworks_iff`
-/

namespace Kidobo

open Foundation

/-! ### Values within values -/

namespace Json

/-- The values directly inside of a value. -/
def children : Json → List Json
  | .array values => values
  | .object entries => entryValues entries
  | _ => []

/-- Whether a value is an array or an object. -/
def isContainer : Json → Bool
  | .array _ | .object _ => true
  | _ => false

/-- The part stands in the value, at any depth. -/
def Within (part value : Json) : Prop :=
  Relation.ReflTransGen (fun parent child => child ∈ parent.children) value part

theorem within_refl (value : Json) : value.Within value := Relation.ReflTransGen.refl

theorem within_iff {part value : Json} :
    part.Within value ↔ part = value ∨ ∃ child ∈ value.children, part.Within child := by
  rw [Within, Relation.ReflTransGen.cases_head_iff]
  exact or_congr eq_comm Iff.rfl

theorem Within.of_child {part value child : Json} (member : child ∈ value.children)
    (within : part.Within child) : part.Within value :=
  Relation.ReflTransGen.head member within

end Json

/-- A string somewhere in the value denotes the network. -/
def Json.Denotes (value : Json) (cidr : CanonicalCidr) : Prop :=
  ∃ text : List Char, (Json.string text).Within value ∧ parseIpCidrNonStrict text = some cidr

theorem denotes_string {text : List Char} {cidr : CanonicalCidr} :
    (Json.string text).Denotes cidr ↔ parseIpCidrNonStrict text = some cidr := by
  constructor
  · rintro ⟨other, within, parsed⟩
    rcases Json.within_iff.mp within with same | ⟨child, member, _⟩
    · cases same
      exact parsed
    · cases member
  · intro parsed
    exact ⟨text, Json.within_refl _, parsed⟩

/-- What is no string denotes what its children denote. -/
theorem denotes_iff {value : Json} {cidr : CanonicalCidr}
    (noString : ∀ text : List Char, value ≠ .string text) :
    value.Denotes cidr ↔ ∃ child ∈ value.children, child.Denotes cidr := by
  constructor
  · rintro ⟨text, within, parsed⟩
    rcases Json.within_iff.mp within with same | ⟨child, member, inChild⟩
    · exact absurd same.symm (noString text)
    · exact ⟨child, member, text, inChild, parsed⟩
  · rintro ⟨child, member, text, inChild, parsed⟩
    exact ⟨text, inChild.of_child member, parsed⟩

/-! ### The two walks -/

/-- The queue finds what the strings within its values denote. -/
theorem mem_collectNetworks {queue : List Json} {cidr : CanonicalCidr} :
    cidr ∈ collectNetworks queue ↔ ∃ value ∈ queue, value.Denotes cidr := by
  -- what a value denotes, its children denote behind it in the queue
  have queued : ∀ (value : Json) (rest : List Json),
      (∀ text : List Char, value ≠ .string text) →
      ((∃ other ∈ rest ++ value.children, other.Denotes cidr) ↔
        ∃ other ∈ value :: rest, other.Denotes cidr) := by
    intro value rest noString
    simp only [List.mem_append, List.mem_cons, or_and_right, exists_or, exists_eq_left]
    rw [denotes_iff noString, or_comm]
  have leaf : ∀ (value : Json) (rest : List Json),
      (∀ text : List Char, value ≠ .string text) → value.children = [] →
      ((∃ other ∈ rest, other.Denotes cidr) ↔ ∃ other ∈ value :: rest, other.Denotes cidr) := by
    intro value rest noString childless
    rw [← queued value rest noString, childless, List.append_nil]
  fun_induction collectNetworks queue with
  | case1 => simp
  | case2 text rest ih =>
    simp only [List.mem_append, Option.mem_toList, List.mem_cons, exists_eq_or_imp, ih,
      denotes_string]
  | case3 values rest ih => exact ih.trans (queued (.array values) rest nofun)
  | case4 entries rest ih => exact ih.trans (queued (.object entries) rest nofun)
  | case5 rest ih =>
    exact ih.trans (leaf .null rest nofun rfl)
  | case6 value rest ih =>
    exact ih.trans (leaf (.bool value) rest nofun rfl)
  | case7 rest ih =>
    exact ih.trans (leaf .number rest nofun rfl)

theorem isEmptyContainerTree_eq (value : Json) :
    value.isEmptyContainerTree =
      (value.isContainer && value.children.all Json.isEmptyContainerTree) := by
  rw [Bool.eq_iff_iff]
  cases value <;>
    simp [Json.isEmptyContainerTree, Json.isContainer, Json.children, entryValues]

/-- Only empty arrays and objects, at every depth. -/
theorem isEmptyContainerTree_iff {value : Json} :
    value.isEmptyContainerTree = true ↔
      ∀ part : Json, part.Within value → part.isContainer = true := by
  constructor
  · intro isEmpty part within
    induction within using Relation.ReflTransGen.head_induction_on with
    | refl =>
      rw [isEmptyContainerTree_eq, Bool.and_eq_true] at isEmpty
      exact isEmpty.1
    | head member within ih =>
      rw [isEmptyContainerTree_eq, Bool.and_eq_true, List.all_eq_true] at isEmpty
      exact ih (isEmpty.2 _ member)
  · intro containers
    induction value using Json.isEmptyContainerTree.induct with
    | case1 values ih =>
      rw [isEmptyContainerTree_eq, Bool.and_eq_true, List.all_eq_true]
      refine ⟨rfl, fun child member => ih child member fun part within => ?_⟩
      exact containers part (within.of_child member)
    | case2 entries ih =>
      rw [isEmptyContainerTree_eq, Bool.and_eq_true, List.all_eq_true]
      refine ⟨rfl, fun child member => ?_⟩
      obtain ⟨entry, inEntries, rfl⟩ := List.mem_map.mp member
      exact ih entry inEntries fun part within => containers part (within.of_child member)
    | case3 value notArray notObject =>
      have isContainer := containers value (Json.within_refl value)
      cases value with
      | array values => exact absurd rfl (notArray values)
      | object entries => exact absurd rfl (notObject entries)
      | null => cases isContainer
      | bool _ => cases isContainer
      | number => cases isContainer
      | string _ => cases isContainer

/-! ### Selected parts -/

/-- The part of the document is searched. -/
def IsSelected (document : Json) (selection : CategorySelection) (part : Json) : Prop :=
  match selection with
  | .all => part = document
  | .selected categories =>
    ∃ root, document = .object root ∧ ∃ category ∈ categories, root.lookup category = some part

/-- Every selected category is a key of the document, which is an object then. -/
def SelectionPresent (document : Json) (selection : CategorySelection) : Prop :=
  match selection with
  | .all => True
  | .selected categories =>
    ∃ root, document = .object root ∧ ∀ category ∈ categories, ∃ part, root.lookup category = some part

/-- A string somewhere in the selected parts denotes the network. -/
def Mentions (document : Json) (selection : CategorySelection) (cidr : CanonicalCidr) : Prop :=
  ∃ part, IsSelected document selection part ∧ part.Denotes cidr

/-- The selected parts hold nothing but empty arrays and objects. -/
def NothingSelected (document : Json) (selection : CategorySelection) : Prop :=
  ∀ part, IsSelected document selection part → ∀ inner : Json, inner.Within part →
    inner.isContainer = true

section Document

variable {document : Json} {selection : CategorySelection}

theorem extractNetworks_ascending : (extractNetworks document selection).Pairwise (· < ·) :=
  dedupAdjacent_sortUnstable_strict _

theorem mem_extractNetworks {cidr : CanonicalCidr} :
    cidr ∈ extractNetworks document selection ↔ Mentions document selection cidr := by
  unfold extractNetworks Mentions
  rw [mem_dedupAdjacent, mem_sortUnstable]
  cases selection with
  | all =>
    rw [mem_collectNetworks]
    simp [IsSelected]
  | selected categories =>
    cases document with
    | object root =>
      simp only [List.mem_flatMap, mem_collectNetworks, Option.mem_toList, IsSelected,
        Json.object.injEq, exists_eq_left']
      constructor
      · rintro ⟨category, inCategories, part, isPart, denotes⟩
        exact ⟨part, ⟨category, inCategories, isPart⟩, denotes⟩
      · rintro ⟨part, ⟨category, inCategories, isPart⟩, denotes⟩
        exact ⟨category, inCategories, part, isPart, denotes⟩
    | null | bool _ | number | string _ | array _ => simp [IsSelected]

/-- Either every item has its value, or there are no values. -/
theorem mapM_eq_ite {α β : Type} (values : α → Option β) (items : List α) :
    items.mapM values =
      if ∀ item ∈ items, (values item).isSome then some (items.filterMap values) else none := by
  induction items with
  | nil => rfl
  | cons item rest ih =>
    rw [List.mapM_cons, ih, List.filterMap_cons]
    simp only [List.forall_mem_cons]
    cases values item with
    | none => simp
    | some value =>
      by_cases later : ∀ item ∈ rest, (values item).isSome
      · simp [if_pos later]
      · simp [if_neg later]

theorem selectedValues_eq_none_iff :
    selectedValues document selection = none ↔ ¬SelectionPresent document selection := by
  cases selection with
  | all => simp [selectedValues, SelectionPresent]
  | selected categories =>
    cases document with
    | object root =>
      rw [selectedValues]
      simp only [SelectionPresent, Json.object.injEq, exists_eq_left', mapM_eq_ite,
        ← Option.isSome_iff_exists]
      split_ifs with allPresent
      · simpa using allPresent
      · simpa using allPresent
    | null | bool _ | number | string _ | array _ => simp [selectedValues, SelectionPresent]

/-- The selected values are the selected parts. -/
theorem mem_selectedValues {values : List Json} {part : Json}
    (selected : selectedValues document selection = some values) :
    part ∈ values ↔ IsSelected document selection part := by
  cases selection with
  | all =>
    cases selected
    simp [IsSelected]
  | selected categories =>
    cases document with
    | object root =>
      simp only [selectedValues, mapM_eq_ite] at selected
      split_ifs at selected with allPresent
      cases selected
      simp [IsSelected]
    | null | bool _ | number | string _ | array _ => cases selected

theorem all_isEmptyContainerTree_iff {values : List Json}
    (selected : selectedValues document selection = some values) :
    values.all Json.isEmptyContainerTree = true ↔ NothingSelected document selection := by
  rw [List.all_eq_true]
  constructor
  · intro empty part isSelected
    exact isEmptyContainerTree_iff.mp (empty part ((mem_selectedValues selected).mpr isSelected))
  · intro nothing part member
    exact isEmptyContainerTree_iff.mpr (nothing part ((mem_selectedValues selected).mp member))

/-- What is required of the networks of a document. -/
structure ExtractedNetworks (document : Json) (selection : CategorySelection)
    (networks : List CanonicalCidr) : Prop where
  present : SelectionPresent document selection
  foundOrEmpty : networks ≠ [] ∨ NothingSelected document selection
  withinEnvelope : githubMetaNetworksWithinEnvelope networks = true
  ascending : networks.Pairwise (· < ·)
  mentioned : ∀ cidr, cidr ∈ networks ↔ Mentions document selection cidr

/-- The networks of a document are those that its selected parts mention. -/
theorem eq_extractNetworks {networks : List CanonicalCidr} (ascending : networks.Pairwise (· < ·))
    (mentioned : ∀ cidr, cidr ∈ networks ↔ Mentions document selection cidr) :
    networks = extractNetworks document selection := by
  apply List.Pairwise.eq_of_mem_iff ascending extractNetworks_ascending
  intro cidr
  rw [mentioned, mem_extractNetworks]

theorem networksOfValue_eq_some_iff {networks : List CanonicalCidr} :
    networksOfValue document selection = some networks ↔
      ExtractedNetworks document selection networks := by
  unfold networksOfValue
  cases selected : selectedValues document selection with
  | none =>
    constructor
    · intro accepted
      cases accepted
    · intro extracted
      exact absurd extracted.present (selectedValues_eq_none_iff.mp selected)
  | some values =>
    have present : SelectionPresent document selection := by
      by_contra absent
      rw [selectedValues_eq_none_iff.mpr absent] at selected
      cases selected
    have empty := all_isEmptyContainerTree_iff selected
    simp only [Option.bind_eq_bind, Option.bind_some]
    constructor
    · intro accepted
      split_ifs at accepted with suspicious within
      obtain rfl := Option.some.inj accepted
      refine ⟨present, ?_, within, extractNetworks_ascending, fun cidr => mem_extractNetworks⟩
      rw [Bool.and_eq_true, not_and_or] at suspicious
      rcases suspicious with found | isEmpty
      · exact Or.inl (by simpa using found)
      · exact Or.inr (empty.mp (by simpa using isEmpty))
    · rintro ⟨_, foundOrEmpty, within, ascending, mentioned⟩
      rw [← eq_extractNetworks ascending mentioned, if_neg, if_pos within]
      intro suspicious
      rw [Bool.and_eq_true] at suspicious
      obtain ⟨none, notEmpty⟩ := suspicious
      rcases foundOrEmpty with found | isEmpty
      · exact found (List.isEmpty_iff.mp none)
      · rw [empty.mpr isEmpty] at notEmpty
        cases notEmpty

/-- Documents with the same selected parts have the same networks. -/
theorem networksOfValue_congr {other : Json}
    (sameParts : ∀ part, IsSelected document selection part ↔ IsSelected other selection part)
    (samePresence : SelectionPresent document selection ↔ SelectionPresent other selection) :
    networksOfValue document selection = networksOfValue other selection := by
  apply Option.ext
  intro networks
  rw [networksOfValue_eq_some_iff, networksOfValue_eq_some_iff]
  have sameMentions : ∀ cidr, Mentions document selection cidr ↔ Mentions other selection cidr := by
    intro cidr
    simp only [Mentions, sameParts]
  have sameNothing : NothingSelected document selection ↔ NothingSelected other selection := by
    simp only [NothingSelected, sameParts]
  constructor
  · rintro ⟨present, foundOrEmpty, within, ascending, mentioned⟩
    refine ⟨samePresence.mp present, foundOrEmpty.imp id sameNothing.mp, within, ascending, ?_⟩
    intro cidr
    rw [mentioned, sameMentions]
  · rintro ⟨present, foundOrEmpty, within, ascending, mentioned⟩
    refine ⟨samePresence.mpr present, foundOrEmpty.imp id sameNothing.mpr, within, ascending, ?_⟩
    intro cidr
    rw [mentioned, sameMentions]

end Document

/-- A document yields networks exactly when every selected category is there,
something was found or there was nothing to find, and the envelope holds. The
networks are then those that the selected parts mention, at any depth and in any
order, and nothing outside of the selection matters. -/
theorem parseAndExtractNetworks_iff (codec : GithubCodec) (selection : CategorySelection) :
    (∀ raw networks, parseAndExtractNetworks codec raw selection = some networks ↔
      ∃ document, codec.parseValue raw = some document ∧
        ExtractedNetworks document selection networks) ∧
    (∀ document other : Json,
      (∀ part, IsSelected document selection part ↔ IsSelected other selection part) →
      (SelectionPresent document selection ↔ SelectionPresent other selection) →
      networksOfValue document selection = networksOfValue other selection) ∧
    (∀ document other networks otherNetworks,
      networksOfValue document selection = some networks →
      networksOfValue other selection = some otherNetworks →
      (∀ cidr, Mentions document selection cidr ↔ Mentions other selection cidr) →
      networks = otherNetworks) := by
  refine ⟨fun raw networks => ?_, fun _ _ sameParts => networksOfValue_congr sameParts, ?_⟩
  · rw [parseAndExtractNetworks]
    simp only [Option.bind_eq_bind, Option.bind_eq_some_iff, networksOfValue_eq_some_iff]
  · intro document other networks otherNetworks accepted otherAccepted sameMentions
    have extracted := networksOfValue_eq_some_iff.mp accepted
    have otherExtracted := networksOfValue_eq_some_iff.mp otherAccepted
    apply List.Pairwise.eq_of_mem_iff extracted.ascending otherExtracted.ascending
    intro cidr
    rw [extracted.mentioned, otherExtracted.mentioned, sameMentions]

end Kidobo
