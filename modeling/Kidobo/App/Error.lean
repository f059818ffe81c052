import Mathlib

/-!
# Workflow failures

The typed failures of the application layer and their operator texts. Paths and
the diagnostics of lower layers are carried as text.
-/

namespace Kidobo

/-- Invalid configuration. -/
inductive ConfigError where
  | parse (reason : String)
  | missingIpsetSection
  | invalidField (field reason : String)
  deriving DecidableEq, Repr

/-- The operator text of a configuration error. -/
def ConfigError.display : ConfigError → String
  | parse reason => s!"failed to parse TOML config: {reason}"
  | missingIpsetSection => "missing required config section `[ipset]`"
  | invalidField field reason => s!"invalid config value for `{field}`: {reason}"

/-- Failure returned by an application workflow or port. -/
inductive AppError where
  | storagePreparation (path source : String)
  | temporaryBans (path reason : String)
  | clock (reason : String)
  | partialBanUpdate (completed pending : String) (source : AppError)
  | interrupted
  | previewSourceBudget (provider reason : String)
  | cacheStaging (provider source : String)
  | pathResolution (source : String)
  | missingConfigFile (path : String)
  | configRead (path source : String)
  | configWrite (path source : String)
  | configurationChanged
  | configurationEdit (reason : String)
  | confirmationRequired
  | configParse (source : ConfigError)
  | lock (source : String)
  | blocklistRead (path source : String)
  | blocklistParseLine (path : String) (line : ℕ) (content : String)
  | blocklistWrite (path source : String)
  | blocklistTargetParse (input : String)
  | blocklistTargetFileRead (path source : String)
  | blocklistInvalidTargets (count : ℕ)
  | blocklistChanged
  | asn (source : String)
  | flushCacheIo (path source : String)
  | flushIncomplete (failures : ℕ) (details : String)
  | ipsetCapacityExceeded (family setName : String) (entries maxelem : ℕ)
  | lookupInvalidTargets (count : ℕ)
  | lookupTargetFileRead (path source : String)
  | lookupSourceLoad (source : String)
  | firewall (source : String)
  | ipset (source : String)
  | initIo (path source : String)
  | initSystemd (command reason : String)
  | initBinaryPathUnavailable (candidates : String)
  | source (provider source : String)
  | sourceAggregateBudgetExceeded (entries limit : ℕ)
  | cachePromotion (provider source : String)
  | duplicateSourceProvider (provider : String)
  deriving DecidableEq, Repr

namespace AppError

/-- A noun in the number of its count. -/
def counted (count : ℕ) (one many : String) : String := if count = 1 then one else many

/-- The operator text of an error. -/
def display : AppError → String
  | storagePreparation path cause =>
    s!"could not secure remote cache directory {path}: {cause}"
  | temporaryBans path reason => s!"temporary ban state failed for {path}: {reason}"
  | clock reason => s!"could not determine temporary ban time: {reason}"
  | partialBanUpdate completed pending cause =>
    s!"ban update partially completed: updated {completed}; could not confirm update to " ++
      s!"{pending}: {display cause}; rerun the command"
  | interrupted => "operation interrupted by SIGINT"
  | previewSourceBudget provider reason =>
    s!"preview source budget exceeded for `{provider}`: {reason}"
  | cacheStaging provider cause =>
    s!"cache staging failed for `{provider}` without a usable fallback: {cause}"
  | pathResolution cause => s!"path resolution failed: {cause}"
  | missingConfigFile path => s!"config file does not exist: {path}"
  | configRead path cause => s!"failed to read config file {path}: {cause}"
  | configWrite path cause => s!"failed to write config file {path}: {cause}"
  | configurationChanged => "configuration changed after the preview; rerun the command"
  | configurationEdit reason => s!"configuration edit failed: {reason}"
  | confirmationRequired =>
    "this change expands the safelist exemption; confirm it interactively or use --yes"
  | configParse cause => s!"config parse/validation failed: {cause.display}"
  | lock cause => s!"lock operation failed: {cause}"
  | blocklistRead path cause => s!"failed to read blocklist file {path}: {cause}"
  | blocklistParseLine path line content =>
    s!"invalid blocklist entry in {path} at line {line}: {content}"
  | blocklistWrite path cause => s!"failed to write blocklist file {path}: {cause}"
  | blocklistTargetParse input => s!"failed to parse blocklist target {input}"
  | blocklistTargetFileRead path cause =>
    s!"failed to read blocklist targets file {path}: {cause}"
  | blocklistInvalidTargets count =>
    s!"blocklist update failed for {count} invalid " ++ counted count "target" "targets"
  | blocklistChanged => "blocklist changed while preparing the update; rerun the command"
  | asn cause => s!"ASN operation failed: {cause}"
  | flushCacheIo path cause => s!"failed to clear remote cache at {path}: {cause}"
  | flushIncomplete failures details =>
    s!"flush cleanup incomplete ({failures} " ++ counted failures "failure" "failures" ++
      s!"): {details}"
  | ipsetCapacityExceeded family setName entries maxelem =>
    s!"effective entry count exceeds ipset maxelem for {family} set `{setName}`: " ++
      s!"entries={entries} maxelem={maxelem}"
  | lookupInvalidTargets count =>
    s!"lookup failed for {count} invalid " ++ counted count "target" "targets"
  | lookupTargetFileRead path cause => s!"failed to read lookup targets file {path}: {cause}"
  | lookupSourceLoad cause => s!"lookup source loading failed: {cause}"
  | firewall cause => s!"firewall operation failed: {cause}"
  | ipset cause => s!"ipset operation failed: {cause}"
  | initIo path cause => s!"initialization I/O failed for {path}: {cause}"
  | initSystemd command reason => s!"systemd setup failed during init for `{command}`: {reason}"
  | initBinaryPathUnavailable candidates =>
    "kidobo binary not found at a trusted installed path; expected one of: " ++ candidates
  | source provider cause => s!"source provider `{provider}` failed: {cause}"
  | sourceAggregateBudgetExceeded entries limit =>
    s!"remote source aggregate exceeds admission budget: entries={entries} limit={limit}"
  | cachePromotion provider cause =>
    s!"cache promotion failed for source provider `{provider}`: {cause}"
  | duplicateSourceProvider provider =>
    s!"source provider ID is registered more than once: {provider}"

end AppError

end Kidobo
