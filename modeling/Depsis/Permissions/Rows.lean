import Depsis.Files.FolderTree

/-! The tables behind folder permissions: shares, the entries in them and the
grant rows, where a row without an entry sits on the root of its share.
-/
namespace Depsis.Permissions

open Depsis.Files

structure Share where
  id : String
  organizationId : String
  name : String

/-- A row of `folder_grants`; the names in `permissions` may be newer than this build. -/
structure GrantRow where
  organizationId : String
  shareId : String
  entryId : Option String
  userId : Option String
  teamId : Option String
  permissions : List String
  deriving DecidableEq

/-- The node a grant row sits on; `entry_id IS NULL` is the share root. -/
def nodeOf (shareId : String) (row : GrantRow) : String := row.entryId.getD shareId

/-- The stored tree and its grants. Ids are `uuidv7()` values: primary keys, and never
shared between a share and a folder. -/
structure Snapshot where
  shares : List Share
  entries : List FileEntry
  grants : List GrantRow
  keyed : (entries.map FileEntry.id).Nodup
  apart : ∀ share ∈ shares, ∀ entry ∈ entries, entry.id ≠ share.id
  referenced : ∀ row ∈ grants, row.entryId.all (fun id => entries.any (fun entry => entry.id = id)) = true

end Depsis.Permissions
