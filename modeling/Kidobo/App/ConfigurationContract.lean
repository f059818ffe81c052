import Kidobo.App.Configuration

/-!
# Reviewed writes of the configuration

Previews and applications follow each other while the file is also changed by
others. Every preview that was ever made tells the truth about its revision, so
an application of any of them writes only what was reviewed, only over the
reviewed revision, and never exempts another address without consent.

## Main definitions

* `ExemptsMore`: an address that only the candidate exempts
* `ConfigurationPreview.Genuine`: what a preview says about its revision
* `ConfigurationSession`: previews, applications and other changes in any order

## Main results

* `expandsExemption_iff`: the comparison of coverage decides new exemptions
* `ConfigurationSession.genuine`: the invariant of every session
* `applyConfiguration_reviewed`: the contract of an application
-/

namespace Kidobo

open Foundation

/-! ### Exemptions -/

/-- Some address of either family is covered by the new exemptions and not by
the old ones. -/
def ExemptsMore (before after : List CanonicalCidr) : Prop :=
  (ipv4Addresses after \ ipv4Addresses before).Nonempty ∨
    (ipv6Addresses after \ ipv6Addresses before).Nonempty

theorem covered_nonempty_iff {width : ℕ} {cidrs : List (Cidr width)} :
    (covered cidrs).Nonempty ↔ cidrs.isEmpty = false := by
  cases cidrs with
  | nil => simp [covered, Set.Nonempty]
  | cons cidr rest =>
    refine iff_of_true ⟨cidr.span.lo, ?_⟩ rfl
    exact mem_covered.mpr ⟨cidr, List.mem_cons_self, le_rfl, cidr.span_valid⟩

/-- The comparison of coverage finds exactly the new exemptions. -/
theorem expandsExemption_iff (before after : SavedConfig) :
    expandsExemption before after = true ↔ ExemptsMore before.safeIps after.safeIps := by
  rw [expandsExemption, ExemptsMore, ← covered_effective_ipv4 _ _ true, ← covered_effective_ipv6,
    covered_nonempty_iff, covered_nonempty_iff]
  simp

/-! ### Previews -/

/-- A preview that says of its revision and of its candidate what is in them. -/
structure ConfigurationPreview.Genuine (format : ConfigFormat) (preview : ConfigurationPreview) :
    Prop where
  reviewed : ∃ document, (preview.original = some document ∨
    preview.original = none ∧ document = defaultConfigTemplate) ∧
      format.fromTomlStr document = .ok preview.before
  valid : format.fromTomlStr preview.candidate = .ok preview.after
  expands : preview.expandsExemption = true ↔
    ExemptsMore preview.before.safeIps preview.after.safeIps

theorem parse_ok {format : ConfigFormat} {contents : List Char} {config : SavedConfig}
    (parses : format.parse contents = .ok config) : format.fromTomlStr contents = .ok config := by
  unfold ConfigFormat.parse at parses
  cases read : format.fromTomlStr contents with
  | error error => simp [read] at parses
  | ok other => simpa [read] using parses

theorem parse_ne_confirmationRequired (format : ConfigFormat) (contents : List Char) :
    format.parse contents ≠ .error .confirmationRequired := by
  unfold ConfigFormat.parse
  cases format.fromTomlStr contents <;> simp

theorem documentOrStarter_ok {revision : Option (List Char)} {allowMissing : Bool} {path : String}
    {document : List Char} (found : documentOrStarter revision allowMissing path = .ok document) :
    revision = some document ∨ revision = none ∧ document = defaultConfigTemplate := by
  cases revision with
  | some contents => exact Or.inl (congrArg some (Except.ok.inj found))
  | none =>
    unfold documentOrStarter at found
    dsimp only at found
    split_ifs at found
    exact Or.inr ⟨rfl, (Except.ok.inj found).symm⟩

section Workflows

variable {setting : StoreSetting} {state : StoreState}

theorem wp_prepareConfiguration (editor : ConfigurationEditor) (request : ConfigurationRequest) :
    wp (storeStep setting) (fun _ op _ _ => op.saves = false)
      (fun preview _ => preview.Genuine setting.format) (fun _ _ => True)
      (prepareConfiguration setting.format editor request) state := by
  have unmoved : Unmoved fun _ op _ _ => op.saves = false := fun _ _ _ _ quiet _ => quiet
  have tolerates : Tolerates (fun _ _ => True) state := fun _ _ _ => trivial
  rw [prepareConfiguration, wp_bind]
  apply wp_checkCancelled_stores unmoved tolerates
  rw [wp_bind]
  apply wp_resolvePaths unmoved tolerates
  intro paths
  rw [wp_bind]
  apply wp_readConfiguration unmoved tolerates
  rw [wp_bind, wp_ofExcept]
  cases found : documentOrStarter state.configuration request.allowMissing paths.configFile with
  | error _ => trivial
  | ok document =>
    rw [Ending.meets_ofExcept_ok, wp_bind, wp_ofExcept]
    cases reads : setting.format.parse document with
    | error _ => trivial
    | ok before =>
      rw [Ending.meets_ofExcept_ok, wp_bind, wp_ofExcept]
      cases editor.render setting.format document request.edit with
      | error _ => trivial
      | ok candidate =>
        rw [Ending.meets_ofExcept_ok, wp_bind, wp_ofExcept]
        cases valid : setting.format.parse candidate with
        | error _ => trivial
        | ok after =>
          rw [Ending.meets_ofExcept_ok, wp_bind]
          apply wp_checkCancelled_stores unmoved tolerates
          exact ⟨⟨document, documentOrStarter_ok found, parse_ok reads⟩, parse_ok valid,
            expandsExemption_iff before after⟩

/-- What an application may do to the stores: write the candidate over the
reviewed revision, with the consent that it needs. -/
def WritesReviewed (preview : ConfigurationPreview) (decision : ConfigurationDecision)
    (stores : Stores) : Step PortOp PortOp.Result StoreState :=
  fun before op _ _ => op.saves = true →
    (∃ mode, op = .writeConfiguration preview.paths.configFile preview.candidate mode) ∧
      before.toStores = stores ∧ stores.configuration = preview.original ∧
      (preview.expandsExemption = true → decision.approveExemption = true)

/-- The stores behind a write of the candidate. -/
def ConfigurationPreview.written (preview : ConfigurationPreview) (stores : Stores) : Stores :=
  { stores with configuration := some preview.candidate }

theorem wp_applyConfiguration (preview : ConfigurationPreview) (decision : ConfigurationDecision) :
    wp (storeStep setting) (WritesReviewed preview decision state.toStores)
      (fun outcome last =>
        if outcome.changed then last.toStores = preview.written state.toStores
        else last.toStores = state.toStores)
      (fun error last => last.toStores = state.toStores ∧
        (last.refusals = state.refusals → error = .confirmationRequired →
          preview.expandsExemption = true))
      (applyConfiguration setting.format preview decision) state := by
  have unmoved : Unmoved (WritesReviewed preview decision state.toStores) := by
    intro _ op _ _ quiet _ saves
    rw [quiet] at saves
    cases saves
  have tolerates : Tolerates (fun error last => last.toStores = state.toStores ∧
      (last.refusals = state.refusals → error = .confirmationRequired →
        preview.expandsExemption = true)) state := by
    intro error op _
    exact ⟨rfl, fun unrefused => absurd unrefused (state.refusals_refuse_ne op)⟩
  rw [applyConfiguration, wp_bind]
  apply wp_checkCancelled_stores unmoved tolerates
  by_cases unapproved : (preview.expandsExemption && !decision.approveExemption) = true
  · rw [if_pos unapproved]
    rw [Bool.and_eq_true] at unapproved
    exact ⟨rfl, fun _ _ => unapproved.1⟩
  -- past this guard an expanded exemption is an approved one
  · have consent : preview.expandsExemption = true → decision.approveExemption = true := by
      intro expands
      simpa [expands] using unapproved
    rw [if_neg unapproved]
    by_cases unchanged : (!preview.changed) = true
    · rw [if_pos unchanged]
      rfl
    · rw [if_neg unchanged]
      apply wp_withLock_stores unmoved tolerates
      rw [applyConfigurationLocked, wp_bind]
      apply wp_checkCancelled_stores unmoved tolerates
      rw [wp_bind]
      apply wp_readConfiguration unmoved tolerates
      -- the file is read again under the lock and must be the previewed revision
      by_cases sameRevision : state.configuration = preview.original
      · rw [if_neg (not_not.mpr sameRevision), wp_bind, wp_ofExcept]
        cases invalid : setting.format.parse preview.candidate with
        | error error =>
          refine ⟨rfl, ?_⟩
          rintro _ rfl
          exact absurd invalid (parse_ne_confirmationRequired setting.format preview.candidate)
        | ok _ =>
          rw [Ending.meets_ofExcept_ok, wp_bind]
          apply wp_checkCancelled_stores unmoved tolerates
          rw [wp_bind]
          refine wp_propagate.mpr (wp_save ?_ ?_ ?_)
          · intro _ _ _
            exact ⟨⟨_, rfl⟩, rfl, sameRevision, consent⟩
          · intro answer _ answered
            cases answer with
            | error _ => cases answered
            | ok _ => rfl
          · intro answer _ refused
            cases answer with
            | error _ =>
              exact ⟨rfl, fun unrefused => absurd unrefused (state.refusals_refuse_ne _)⟩
            | ok _ => cases refused
      · rw [if_pos sameRevision]
        exact ⟨rfl, fun _ never => nomatch never⟩

end Workflows

/-! ### Sessions -/

/-- Previews and applications in any order, each run to its end or cut short,
with other changes of the configuration file between them. The previews that
were made so far, and the stores. -/
inductive ConfigurationSession (setting : StoreSetting) (editor : ConfigurationEditor) :
    List ConfigurationPreview → Stores → Prop
  | start (stores : Stores) : ConfigurationSession setting editor [] stores
  | edited {previews : List ConfigurationPreview} {stores : Stores}
      (session : ConfigurationSession setting editor previews stores)
      (contents : Option (List Char)) :
      ConfigurationSession setting editor previews { stores with configuration := contents }
  | prepared {previews : List ConfigurationPreview} {stores : Stores}
      {request : ConfigurationRequest} {preview : ConfigurationPreview} {last : StoreState}
      {trace : List (Event PortOp PortOp.Result StoreState)}
      (session : ConfigurationSession setting editor previews stores)
      (runs : Runs (storeStep setting) (prepareConfiguration setting.format editor request)
        ⟨stores, []⟩ trace last (.returned preview)) :
      ConfigurationSession setting editor (preview :: previews) last.toStores
  | unprepared {previews : List ConfigurationPreview} {stores : Stores}
      {request : ConfigurationRequest} {last : StoreState}
      {trace : List (Event PortOp PortOp.Result StoreState)}
      {ending : Ending AppError ConfigurationPreview}
      (session : ConfigurationSession setting editor previews stores)
      (runs : Runs (storeStep setting) (prepareConfiguration setting.format editor request)
        ⟨stores, []⟩ trace last ending) :
      ConfigurationSession setting editor previews last.toStores
  | applied {previews : List ConfigurationPreview} {stores : Stores}
      {preview : ConfigurationPreview} {decision : ConfigurationDecision} {last : StoreState}
      {trace : List (Event PortOp PortOp.Result StoreState)}
      {ending : Ending AppError ConfigurationOutcome}
      (session : ConfigurationSession setting editor previews stores)
      (reviewed : preview ∈ previews)
      (runs : Runs (storeStep setting) (applyConfiguration setting.format preview decision)
        ⟨stores, []⟩ trace last ending) :
      ConfigurationSession setting editor previews last.toStores

/-- Every preview of a session tells the truth about its revision. -/
theorem ConfigurationSession.genuine {setting : StoreSetting} {editor : ConfigurationEditor}
    {previews : List ConfigurationPreview} {stores : Stores}
    (session : ConfigurationSession setting editor previews stores) :
    ∀ preview ∈ previews, preview.Genuine setting.format := by
  induction session with
  | start stores => simp
  | edited session contents ih => exact ih
  | prepared session runs ih =>
    obtain ⟨_, genuine⟩ := runs.sound (wp_prepareConfiguration editor _)
    exact List.forall_mem_cons.mpr ⟨genuine, ih⟩
  | unprepared session runs ih => exact ih
  | applied session reviewed runs ih => exact ih

/-- In every session, an application of any of its previews saves nothing but
the candidate, and that only where the file is the reviewed revision and, when
the candidate exempts another address, with the approval. The approval is asked
for only when there is such an address. A failed application changes nothing. -/
theorem applyConfiguration_reviewed {setting : StoreSetting} {editor : ConfigurationEditor}
    {previews : List ConfigurationPreview} {stores : Stores} {preview : ConfigurationPreview}
    {decision : ConfigurationDecision} {last : StoreState}
    {trace : List (Event PortOp PortOp.Result StoreState)}
    {ending : Ending AppError ConfigurationOutcome}
    (session : ConfigurationSession setting editor previews stores) (reviewed : preview ∈ previews)
    (runs : Runs (storeStep setting) (applyConfiguration setting.format preview decision)
      ⟨stores, []⟩ trace last ending) :
    preview.Genuine setting.format ∧
      (∀ event ∈ trace, event.op.saves = true →
        (∃ mode, event.op =
          .writeConfiguration preview.paths.configFile preview.candidate mode) ∧
        event.before.configuration = preview.original ∧
        (ExemptsMore preview.before.safeIps preview.after.safeIps →
          decision.approveExemption = true)) ∧
      (last.toStores = stores ∨
        stores.configuration = preview.original ∧
          last.toStores = { stores with configuration := some preview.candidate }) ∧
      (∀ error, ending = .failed error → last.toStores = stores) ∧
      (ending = .failed .confirmationRequired → last.refusals = [] →
        ExemptsMore preview.before.safeIps preview.after.safeIps) := by
  have genuine := session.genuine preview reviewed
  obtain ⟨steps, ended⟩ := runs.sound (wp_applyConfiguration preview decision)
  refine ⟨genuine, ?_, ?_, ?_, ?_⟩
  · intro event member saves
    obtain ⟨writes, sameStores, revision, consent⟩ := steps event member saves
    refine ⟨writes, ?_, fun more => consent (genuine.expands.mpr more)⟩
    rw [sameStores]
    exact revision
  -- every call before the one write leaves the stores, and there is no call after it that saves
  · apply (runs.invariant (fun state => state.toStores = stores ∨
      stores.configuration = preview.original ∧ state.toStores = preview.written stores) ?_
      (Or.inl rfl)).2
    intro event member sofar
    have stepped := runs.stepped event member
    have step := steps event member
    obtain ⟨before, op, result, after⟩ := event
    dsimp only at stepped step sofar ⊢
    obtain ⟨_, rfl⟩ := stepped
    cases saves : op.saves with
    | false =>
      have quiet : (before.after setting op result).toStores = before.toStores := after_quiet saves
      rw [quiet]
      exact sofar
    | true =>
      obtain ⟨⟨mode, rfl⟩, sameStores, revision, _⟩ := step saves
      cases result with
      | error error => exact sofar
      | ok written =>
        right
        refine ⟨revision, ?_⟩
        rw [← sameStores]
        rfl
  · rintro error rfl
    exact ended.1
  · rintro rfl unrefused
    exact genuine.expands.mp (ended.2 unrefused rfl)

/-- A new exemption behind the minimal configuration, approved and written. -/
theorem applyConfiguration_reviewed_allow :
    ∃ (format : ConfigFormat) (preview : ConfigurationPreview) (last : StoreState),
      preview.Genuine format ∧ preview.original = some minimalText ∧
      preview.expandsExemption = true ∧ last.configuration = some preview.candidate := by
  let exempted : List Char := minimalText ++ "[safe]\nips = ['203.0.113.0/24']\n".toList
  let format : ConfigFormat :=
    { minimalFormat [] with
      fromTomlStr := fun contents =>
        if contents = exempted then
          .ok { minimalConfig [] with
            safeIps := (parseBlocklistTarget "203.0.113.0/24".toList).toList }
        else (minimalFormat []).fromTomlStr contents }
  let setting : StoreSetting := ⟨format, fun _ => none⟩
  let editor : ConfigurationEditor := ⟨fun _ _ _ => .ok exempted⟩
  let stores : Stores := ⟨none, ⟨.empty, .empty⟩, some minimalText⟩
  let request : ConfigurationRequest := ⟨⟨none, "/tmp", []⟩, .addAllow "203.0.113.0/24", false⟩
  have written : returnsWith (fun preview prepared => returnsWith (fun _ last =>
          preview.original == some minimalText && preview.expandsExemption &&
            last.configuration == some preview.candidate)
        (exec (calmStores setting systemPaths 0) (applyConfiguration format preview ⟨true⟩)
          ⟨prepared.toStores, []⟩))
      (exec (calmStores setting systemPaths 0) (prepareConfiguration format editor request)
        ⟨stores, []⟩) = true := by decide +kernel
  have truthful := storeStep_calmStores setting systemPaths 0
  obtain ⟨preview, prepared, ran, written⟩ := returnsWith_eq_true.mp written
  obtain ⟨outcome, last, applyRan, written⟩ := returnsWith_eq_true.mp written
  obtain ⟨_, prepares⟩ := exists_runs_of_exec truthful ran
  obtain ⟨_, applies⟩ := exists_runs_of_exec truthful applyRan
  simp only [Bool.and_eq_true, beq_iff_eq] at written
  obtain ⟨⟨original, expands⟩, file⟩ := written
  have session : ConfigurationSession setting editor [preview] prepared.toStores :=
    .prepared (.start stores) prepares
  obtain ⟨genuine, _⟩ := applyConfiguration_reviewed session List.mem_cons_self applies
  exact ⟨format, preview, last, genuine, original, expands, file⟩

end Kidobo
