import Depsis.Files.FolderTree
import Depsis.Foundation.Cursor
import Depsis.Foundation.Keyset
import Depsis.Foundation.Table
import Mathlib.Algebra.GroupWithZero.Nat
import Mathlib.Data.String.Basic

/-! The pages of a folder and of the trash. The order of a page and the condition
behind its cursor are two texts made from one chain of columns.
-/
namespace Depsis.Files.Listing

open Depsis.Foundation Depsis.Foundation.Keyset

/-- A row of `file_entries` by its id, in the columns a listing reads; only the two options may be NULL. -/
structure FileRow where
  organizationId : String
  shareId : String
  parentId : Option String
  kind : EntryKind
  name : String
  path : String
  sizeBytes : Nat
  updatedAt : Int
  trashedAt : Option Int

abbrev Entry := String × FileRow

/-- What the database makes of text: the collation its columns have, and two of its functions. -/
structure Locale where
  collation : StrictOrder String
  foldIdentity : String → String
  lower : String → String

def EntryKind.text : EntryKind → String
  | .folder => "folder"
  | .file => "file"

def extension (name : String) : Option String :=
  let backwards := name.toList.reverse
  let last := backwards.takeWhile (· ≠ '.')
  match backwards.dropWhile (· ≠ '.') with
  | _::_::_ => if last.isEmpty then none else some (String.ofList last.reverse)
  | _ => none

inductive SortOrder where
  | name | type | modified | size

inductive SortDirection where
  | asc | desc
deriving DecidableEq

def DEFAULT_DIRECTION : SortOrder → SortDirection
  | .name => .asc
  | .type => .asc
  | .modified => .desc
  | .size => .desc

inductive Col where
  | kind | nameFold | ext | updatedAt | sizeBytes | id

structure Step where
  col : Col
  desc : Bool

/-- `col = cur`, or `col > cur` and `col < cur` as the step runs. -/
inductive Condition where
  | equal (col : Col)
  | past (step : Step)

structure Fragments where
  after : List (List Condition)
  by' : List Step

def sortKey : SortOrder → Col × List Col
  | .name => (.nameFold,[])
  | .type => (.ext,[.nameFold])
  | .modified => (.updatedAt,[.nameFold])
  | .size => (.sizeBytes,[.nameFold])

def chain (sort : SortOrder) (direction : SortDirection) : List Step :=
  ⟨(sortKey sort).1,direction = .desc⟩::((sortKey sort).2.map (fun col => ⟨col,false⟩) ++ [⟨.id,false⟩])

def branches (equal : List Condition) : List Step → List (List Condition)
  | [] => []
  | step::rest => (equal ++ [.past step])::branches (equal ++ [.equal step.col]) rest

def sortFragments (sort : SortOrder) (direction : SortDirection) : Fragments where
  after := branches [] (chain sort direction)
  by' := ⟨.kind,false⟩::chain sort direction

def numbers : StrictOrder Int where
  before := fun first second => decide (first < second)
  irreflexive := fun key => decide_eq_false (lt_irrefl key)
  transitive := fun _ _ _ one two => decide_eq_true ((of_decide_eq_true one).trans (of_decide_eq_true two))
  total := fun _ _ one two => le_antisymm (not_lt.mp (of_decide_eq_false two)) (not_lt.mp (of_decide_eq_false one))

def uuids : StrictOrder String where
  before := fun first second => decide (first < second)
  irreflexive := fun key => decide_eq_false (lt_irrefl key)
  transitive := fun _ _ _ one two => decide_eq_true ((of_decide_eq_true one).trans (of_decide_eq_true two))
  total := fun _ _ one two => le_antisymm (not_lt.mp (of_decide_eq_false two)) (not_lt.mp (of_decide_eq_false one))

section Query

variable (locale : Locale)

def Step.column (step : Step) : Column Entry :=
  match step.col with
  | .kind => ⟨String,inferInstance,locale.collation,fun entry => EntryKind.text entry.2.kind,step.desc⟩
  | .nameFold => ⟨String,inferInstance,locale.collation,fun entry => locale.foldIdentity entry.2.name,step.desc⟩
  | .ext => ⟨String,inferInstance,locale.collation,fun entry => ((extension entry.2.name).map locale.lower).getD "",step.desc⟩
  | .updatedAt => ⟨Int,inferInstance,numbers,fun entry => entry.2.updatedAt,step.desc⟩
  | .sizeBytes => ⟨Int,inferInstance,numbers,fun entry => (entry.2.sizeBytes : Int),step.desc⟩
  | .id => ⟨String,inferInstance,uuids,Prod.fst,step.desc⟩

def Condition.holds (cur entry : Entry) : Condition → Bool
  | .equal col => (Step.column locale ⟨col,false⟩).same cur entry
  | .past step => (step.column locale).before cur entry

/-- `kind > c_kind OR (kind = c_kind AND (… OR …))`. -/
def Fragments.selects (fragments : Fragments) (cur entry : Entry) : Bool :=
  Condition.holds locale cur entry (.past ⟨.kind,false⟩) ||
    (Condition.holds locale cur entry (.equal .kind) &&
      fragments.after.any (fun branch => branch.all (Condition.holds locale cur entry)))

def Fragments.columns (fragments : Fragments) : List (Column Entry) := fragments.by'.map (Step.column locale)

structure FileEntryPage (Item : Type) where
  items : List Item
  nextCursor : Option String
  hasMore : Bool

def page {Item : Type} (show' : Entry → Item) (rows : List Entry) (limit : Nat) : FileEntryPage Item :=
  let hasMore := decide (limit < rows.length)
  let items := if hasMore then rows.take limit else rows
  ⟨items.map show',if hasMore then items.getLast?.map Prod.fst else none,hasMore⟩

variable (entries : Table String FileRow)

def tenant (organizationId : String) : Table String FileRow := entries.retain (fun _ row => row.organizationId = organizationId)

structure ListedEntry where
  entry : Entry
  childCount : Option Nat
  subtreeBytes : Option Nat

def counted (entry : Entry) : ListedEntry where
  entry := entry
  childCount := if entry.2.kind = .folder then
    some (((entries.rows.filter (fun child => child.2.parentId = some entry.1 && child.2.trashedAt.isNone)).take 1000).length)
  else none
  subtreeBytes := if entry.2.kind = .folder then
    some (((entries.rows.filter (fun deep => deep.2.shareId = entry.2.shareId && deep.2.kind = .file &&
      deep.2.trashedAt.isNone && decide (entry.2.path ++ "/" ≤ deep.2.path) && decide (deep.2.path < entry.2.path ++ "0"))).map
      (fun deep => deep.2.sizeBytes)).sum)
  else none

def folderRows (organizationId shareId : String) (parentId : Option String) : List Entry :=
  (tenant entries organizationId).rows.filter (fun entry =>
    entry.2.shareId = shareId && entry.2.parentId = parentId && entry.2.trashedAt.isNone)

structure FolderPage extends FileEntryPage ListedEntry where
  total : Nat
  folders : Nat
  files : Nat

def list (organizationId shareId : String) (parentId cursor : Option String) (limit : Nat) (sort : SortOrder)
    (direction : Option SortDirection) : FolderPage :=
  let order := sortFragments sort (direction.getD (DEFAULT_DIRECTION sort))
  let wanted := folderRows entries organizationId shareId parentId
  let behind := match cursor with
    | none => wanted
    | some id => wanted.filter (fun entry =>
      ((tenant entries organizationId).lookup id).any (fun cur => order.selects locale (id,cur) entry))
  let rows := (sorted (order.columns locale) behind).take (limit + 1)
  { page (counted (tenant entries organizationId)) rows limit with
    total := wanted.length
    folders := (wanted.filter (fun entry => entry.2.kind = .folder)).length
    files := (wanted.filter (fun entry => entry.2.kind = .file)).length }

structure TrashedEntry where
  entry : Entry
  parentTrashed : Bool

def joined (entry : Entry) : TrashedEntry where
  entry := entry
  parentTrashed := (entry.2.parentId.bind entries.lookup).any (fun parent => parent.trashedAt.isSome)

def trashRows (organizationId shareId : String) : List Entry :=
  (tenant entries organizationId).rows.filter (fun entry => entry.2.shareId = shareId && entry.2.trashedAt.isSome)

/-- `(trashed_at, id) < (…)`, which a NULL makes neither true nor false. -/
def trashedBefore (entry cur : Entry) : Bool :=
  match entry.2.trashedAt,cur.2.trashedAt with
  | some trashed,some mark => decide (trashed < mark) || (trashed = mark && decide (entry.1 < cur.1))
  | _,_ => false

/-- `ORDER BY e.trashed_at DESC, e.id DESC`, whose rows are all in the trash. -/
def trashColumns : List (Column Entry) :=
  [⟨Int,inferInstance,numbers,fun entry => entry.2.trashedAt.getD 0,true⟩,⟨String,inferInstance,uuids,Prod.fst,true⟩]

def listTrash (organizationId shareId : String) (cursor : Option String) (limit : Nat) : FileEntryPage TrashedEntry :=
  let wanted := trashRows entries organizationId shareId
  let behind := match cursor with
    | none => wanted
    | some id => wanted.filter (fun entry =>
      ((tenant entries organizationId).lookup id).any (fun cur => trashedBefore entry (id,cur)))
  page (joined (tenant entries organizationId)) ((sorted trashColumns behind).take (limit + 1)) limit

end Query

end Depsis.Files.Listing
