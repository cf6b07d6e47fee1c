import HardyAI.Skills.OperationIdentity

/-! The permissions of the Email agent and its catalog of managed labels. -/

open Foundation Foundation.Json HardyAI.Skills

namespace HardyAI.Email

section Permissions

/-- `EmailAccessGrant`. -/
structure AccessGrant where
  userId : Str
  discordChannelId : Str
  externalUserId : Option Str
  agentIds : List Str
  audiences : List Str
  enabled : Bool
  deriving DecidableEq

/-- `EmailManagedLabel`. -/
structure ManagedLabel where
  key : Str
  displayName : Str
  enabled : Bool
  deriving DecidableEq

/-- `EmailAgentPermissions`. -/
structure Permissions where
  version : Int
  categoryKeys : List Str
  accessGrants : List AccessGrant
  managedLabels : List ManagedLabel

def Permissions.enabledLabels (p : Permissions) : List ManagedLabel :=
  p.managedLabels.filter ManagedLabel.enabled

def Permissions.additiveLabelWritesReady (p : Permissions) : Bool :=
  2 ≤ p.version && !p.enabledLabels.isEmpty

variable [PythonText]

def AccessGrant.admits (userId channelId externalUserId agentId : Str) (g : AccessGrant) : Bool :=
  g.enabled && g.userId = userId && g.discordChannelId = channelId &&
    (g.externalUserId.all fun id => id = [] || id = externalUserId) &&
    (g.agentIds.contains agentId || g.agentIds.contains (text "all")) &&
    g.audiences.contains (text "shared")

def Permissions.authorize (p : Permissions) (context : List (Str × Json)) :
    Except PyError (Option AccessGrant) := do
  let sourceInterface ← textOr (lookup context "source_interface") []
  if PythonText.casefold (strip sourceInterface) ≠ text "discord" then .ok none
  else if lookup context "identity_bound" ≠ some (.bool true) then .ok none
  else
    let userId ← textOr (lookup context "requested_by_user_id") []
    let channelId ← textOr (lookup context "discord_channel_id") []
    let externalUserId ← textOr (lookup context "external_user_id") []
    let agentId ← textOr (lookup context "agent_id") "jarvis"
    .ok (p.accessGrants.find? (AccessGrant.admits (PythonText.casefold (strip userId))
      (strip channelId) (strip externalUserId) (PythonText.casefold (strip agentId))))

end Permissions

section Catalog

variable [PythonText]

/-- `_selector` of a text. -/
def selector (value : Str) : Str := PythonText.casefold (join " " (splitWords value))

/-- `EmailCatalogService.label_ref`. -/
def labelRef (labelKey : Str) : Except PyError Str := do
  let key := PythonText.casefold (strip labelKey)
  let material ← digest (join "\n" ["email-catalog-v1", text "label", key])
  .ok (text "label_v1_" ++ material.take 24)

structure LabelRow where
  labelRef : Str
  displayName : Str
  deriving DecidableEq

/-- `EmailCatalogService.labels` without a text to look for. -/
def Permissions.labels (p : Permissions) : Except PyError (List LabelRow) :=
  p.enabledLabels.mapM fun label => do
    let ref ← labelRef label.key
    .ok ⟨ref, label.displayName⟩

/-- The names a label is found under. -/
def ManagedLabel.aliases (ref : Str) (label : ManagedLabel) : List Str :=
  [PythonText.casefold ref, PythonText.casefold label.key,
    PythonText.casefold (label.key.map fun c => if text "_" = [c] then codePoint ' ' else c),
    PythonText.casefold label.displayName]

inductive CatalogResolution
  | ok (canonicalRefs : List Str)
  | missing (candidates : List LabelRow)
  | ambiguous (candidates : List LabelRow)
  | duplicate
  deriving DecidableEq

/-- `EmailCatalogService._resolve`, for the rows of a catalog with the aliases of each. -/
def resolveAliases (rows : List (LabelRow × List Str)) :
    List Str → List Str → CatalogResolution
  | [], resolved => .ok resolved
  | value :: values, resolved =>
    let found := ((rows.filter fun row => row.2.contains (selector value)).map
      fun row => row.1.labelRef).eraseDups
    let candidates := (rows.map Prod.fst).take 10
    match found with
    | [] => .missing candidates
    | [ref] => if resolved.contains ref then .duplicate else resolveAliases rows values (resolved ++ [ref])
    | _ => .ambiguous candidates

/-- `EmailCatalogService.resolve_labels`. -/
def Permissions.resolveLabels (p : Permissions) (values : List Str) :
    Except PyError CatalogResolution := do
  let catalog ← p.labels
  -- The label of a row is the first enabled one with the reference of the row.
  let rows := catalog.map fun row =>
    (row, ((p.enabledLabels.zip catalog).find? fun entry => entry.2.labelRef = row.labelRef).elim []
      fun entry => entry.1.aliases row.labelRef)
  .ok (resolveAliases rows values [])

end Catalog

end HardyAI.Email
