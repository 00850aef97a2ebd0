import Depsis.Files.CompareLosses
import Depsis.Files.Reconcile

/-! What a pass may forget: rows whose entries are neither at their own place nor in the
bin. Where a row lies is read off its parents, not off its `path`.
-/
namespace Depsis.Files.Indexer

open Depsis.Foundation Depsis.Foundation.Levels Relation List Option

structure ShareDisk where
  directory : List String → Option (List RawEntry)
  distinct : ∀ path found, directory path = some found → (found.map RawEntry.name).Nodup
  nested : ∀ path name, (directory (path ++ [name])).isSome ↔ ∃ found, directory path = some found ∧
    ∃ raw ∈ found, raw.name = name.toByteArray ∧ raw.type = .directory

def typeOf : EntryKind → FileType
  | .folder => .directory
  | .file => .regularFile

def Entry (disk : ShareDisk) (path : List String) (kind : EntryKind) : Prop :=
  ∃ above name found, path = above ++ [name] ∧ disk.directory above = some found ∧
    ∃ raw ∈ found, raw.name = name.toByteArray ∧ raw.type = typeOf kind

section

variable (env : Surroundings) (disk : ShareDisk)

inductive Lies (table : Index) : String → List String → Prop where
  | root {id : String} {row : IndexRow} (stored : table.lookup id = some row)
    (own : row.organizationId = env.organizationId) (here : row.shareId = env.shareId) (top : row.parentId = none) :
    Lies table id [row.name]
  | under {id parent : String} {row : IndexRow} {parts : List String} (stored : table.lookup id = some row)
    (own : row.organizationId = env.organizationId) (here : row.shareId = env.shareId) (below : row.parentId = some parent)
    (above : Lies table parent parts) : Lies table id (parts ++ [row.name])

def Shown (path : List String) : Prop :=
  ∃ above name, path = above ++ [name] ∧ Disk.unlisted above name = false ∧ entryName name = some name

structure Sound (table : Index) : Prop where
  chained : ∀ id row, table.lookup id = some row → row.organizationId = env.organizationId →
    row.shareId = env.shareId → ∃ parts, Lies env table id parts
  housed : ∀ id row parent, table.lookup id = some row → row.organizationId = env.organizationId →
    row.parentId = some parent → ∃ above, table.lookup parent = some above ∧
      above.organizationId = env.organizationId ∧ above.shareId = row.shareId ∧ above.kind = .folder
  shown : ∀ id parts kind, Lies env table id parts → Entry disk parts kind → Shown parts
  single : ∀ id row other sibling parts kind, table.lookup id = some row → table.lookup other = some sibling → other ≠ id →
    Lies env table id parts → (row.trashedAt = none ∨ row.recycled = true) → sibling.organizationId = row.organizationId →
    sibling.shareId = row.shareId → sibling.parentId = row.parentId → sibling.name = row.name → ¬Entry disk parts kind
  separate : ∀ id row parts kind, table.lookup id = some row → row.trashedAt = none → Lies env table id parts →
    Entry disk parts kind → kind ≠ row.kind → ¬Entry disk (BIN ++ parts) row.kind

def Truthful (maxListing : Nat) : Prop :=
  ∀ asking path page after entries truncated, env.agent asking path page after = .listing entries truncated →
    ∃ directory found, disk.directory path = some directory ∧ found.Perm directory ∧
      listDirectory maxListing path after found = (entries,truncated)

def Aimed (table : Index) (folder : Folder) : Prop :=
  match folder.id with
  | none => folder.components = []
  | some id => ∀ row, table.lookup id = some row → row.organizationId = env.organizationId →
    row.kind = .folder ∧ Lies env table id folder.components

/-- A turn that is not misled. A folder that is said to be gone is gone, and gone from the
bin too if the bin does not show it; the bin names every row that has its entry there only.
-/
structure Told (pass : Pass) (folder : Folder) : Prop where
  aimed : Aimed env pass.table folder
  gone : (pass.look env folder).1 = some .gone → ∀ id, folder.id = some id → (pass.table.lookup id).isSome →
    ¬Entry disk folder.components .folder ∧
      (inTheBin env pass.turn folder.components = false → ¬Entry disk (BIN ++ folder.components) .folder)
  bin : ∀ entries, (pass.look env folder).1 = some (.entries entries false) → ∀ id row, pass.table.lookup id = some row →
    Here (spotOf env folder) row → ¬Entry disk (folder.components ++ [row.name]) row.kind →
    Entry disk (BIN ++ (folder.components ++ [row.name])) row.kind → row.name ∈ binNames env pass.turn folder.components

def Marked (row now : IndexRow) : Prop :=
  (row.trashedAt = none ∧ now.trashedAt ≠ none) ∨ (row.recycled = false ∧ now.recycled = true)

/-- Rows go only if their entries are gone from both places, and are marked only if they
are gone from their own.
-/
structure Spares (before after : Index) : Prop where
  removed : ∀ id row, before.lookup id = some row → after.lookup id = none → ∃ parts, Lies env before id parts ∧
    ¬Entry disk parts row.kind ∧ ¬Entry disk (BIN ++ parts) row.kind
  marked : ∀ id row now, before.lookup id = some row → after.lookup id = some now → Marked row now →
    ∃ parts, Lies env before id parts ∧ ¬Entry disk parts row.kind

structure Steady (before after : Index) (drawn reached : Nat) : Prop where
  alike : ∀ id row was, after.lookup id = some row → before.lookup id = some was → Alike was row
  made : ∀ id row, after.lookup id = some row → before.lookup id = none → ∃ next, drawn ≤ next ∧ id = env.server.newId next
  later : drawn ≤ reached
  fresh : Fresh env.server reached after

end

section Places

variable {env : Surroundings} {disk : ShareDisk} {table before after : Index} {id : String} {parts path : List String}
variable {name : String} {kind : EntryKind}

theorem Lies.row (lies : Lies env table id parts) : ∃ row, table.lookup id = some row ∧
    row.organizationId = env.organizationId ∧ row.shareId = env.shareId := by
  cases lies with
  | root stored own here | under stored own here => exact ⟨_,stored,own,here⟩

theorem Lies.ends (lies : Lies env table id parts) : ∃ above name, parts = above ++ [name] := by
  cases lies with
  | root => exact ⟨[],_,rfl⟩
  | under => exact ⟨_,_,rfl⟩

theorem Lies.unique {other : List String} (one : Lies env table id parts) (two : Lies env table id other) :
    parts = other := by
  induction one generalizing other with
  | root stored own here top =>
    cases two with
    | root again =>
      cases stored.symm.trans again
      rfl
    | under again _ _ below =>
      cases stored.symm.trans again
      rw [top] at below
      cases below
  | under stored own here below above ih =>
    cases two with
    | root again _ _ top =>
      cases stored.symm.trans again
      rw [top] at below
      cases below
    | under again _ _ below' above' =>
      cases stored.symm.trans again
      cases below.symm.trans below'
      rw [ih above']

theorem Lies.back (lies : Lies env after id parts) (sound : Sound env disk before)
    (alike : ∀ id row was, after.lookup id = some row → before.lookup id = some was → Alike was row)
    (known : before.lookup id ≠ none) : Lies env before id parts := by
  induction lies with
  | root stored own here top =>
    obtain ⟨was,present⟩ := ne_none_iff_exists'.mp known
    have same := alike _ _ _ stored present
    rw [same.name]
    exact .root present (same.organizationId.symm.trans own) (same.shareId.symm.trans here) (same.parentId.symm.trans top)
  | under stored own here below above ih =>
    obtain ⟨was,present⟩ := ne_none_iff_exists'.mp known
    have same := alike _ _ _ stored present
    have owned := same.organizationId.symm.trans own
    have named := same.parentId.symm.trans below
    obtain ⟨high,there,-⟩ := sound.housed _ was _ present owned named
    rw [same.name]
    exact .under present owned (same.shareId.symm.trans here) named (ih (by simp [there]))

theorem entry_under : Entry disk (path ++ [name]) kind ↔ ∃ found, disk.directory path = some found ∧
    ∃ raw ∈ found, raw.name = name.toByteArray ∧ raw.type = typeOf kind := by
  constructor
  · rintro ⟨above,last,found,same,there,raw,member,named,typed⟩
    obtain ⟨rfl,tail⟩ := append_inj' same rfl
    cases tail
    exact ⟨found,there,raw,member,named,typed⟩
  · rintro ⟨found,there,raw,member,named,typed⟩
    exact ⟨path,name,found,rfl,there,raw,member,named,typed⟩

theorem entry_above (entry : Entry disk (path ++ [name] ++ parts) kind) (deeper : parts ≠ []) :
    Entry disk (path ++ [name]) .folder := by
  induction parts using List.reverseRecOn generalizing kind with
  | nil => exact absurd rfl deeper
  | append_singleton front last ih =>
    rw [← append_assoc] at entry
    obtain ⟨found,there,-⟩ := entry_under.mp entry
    rcases front.eq_nil_or_concat with rfl | ⟨init,final,rfl⟩
    · rw [append_nil] at there
      exact entry_under.mpr ((disk.nested path name).mp (by rw [there]; rfl))
    · rw [concat_eq_append] at there ih
      rw [← append_assoc] at there ih
      have folder : Entry disk (path ++ [name] ++ (init ++ [final])) .folder := by
        rw [← append_assoc]
        exact entry_under.mpr ((disk.nested _ final).mp (by rw [there]; rfl))
      rw [← append_assoc] at folder
      exact ih folder (by simp)

theorem entry_kind {other : EntryKind} (one : Entry disk (path ++ [name]) kind) (two : Entry disk (path ++ [name]) other) :
    kind = other := by
  obtain ⟨found,there,raw,member,named,typed⟩ := entry_under.mp one
  obtain ⟨_,again,raw',member',named',typed'⟩ := entry_under.mp two
  cases there.symm.trans again
  have same := inj_on_of_nodup_map (disk.distinct path found there) member member' (named.trans named'.symm)
  have types : typeOf kind = typeOf other := typed.symm.trans (same ▸ typed')
  cases kind <;> cases other <;> first | rfl | cases types

theorem absent_below (sound : Sound env disk table) {above : List String} {top : String} {row : IndexRow}
    (stored : table.lookup top = some row) (lies : Lies env table top parts) (absent : ¬Entry disk (above ++ parts) row.kind)
    (path : ReflTransGen (RightBelow (kids table env.organizationId)) top id) : ∃ parts row, table.lookup id = some row ∧
      Lies env table id parts ∧ ¬Entry disk (above ++ parts) row.kind := by
  induction path with
  | refl => exact ⟨parts,row,stored,lies,absent⟩
  | tail path step ih =>
    obtain ⟨places,folder,there,place,missing⟩ := ih
    obtain ⟨child,present,own,named⟩ := under_iff.mp step
    obtain ⟨_,again,-,share,kind⟩ := sound.housed _ child _ present own named
    cases there.symm.trans again
    obtain ⟨high,known,-,here⟩ := place.row
    cases there.symm.trans known
    refine ⟨_,child,present,.under present own (share.symm.trans here) named place,fun entry => missing ?_⟩
    obtain ⟨front,last,rfl⟩ := place.ends
    rw [← append_assoc,← append_assoc] at entry
    rw [kind,← append_assoc]
    exact entry_above entry (by simp)

end Places

section Listings

variable {env : Surroundings} {disk : ShareDisk} {maxListing : Nat} {asking : Asking} {path : List String}
variable {entries : List DirEntryInfo} {truncated : Bool} {directory : List RawEntry}

theorem entry_of_addressable {entry : DirEntryInfo} (there : disk.directory path = some directory)
    (listed : entry ∈ addressable path directory) : Entry disk (path ++ [entry.name]) (kindOf entry) := by
  obtain ⟨shown,member,kept⟩ := mem_filterMap.mp listed
  obtain ⟨raw,present,told⟩ := mem_filterMap.mp member
  rw [listed_name kept]
  refine entry_under.mpr ⟨directory,there,raw,present,(infoOf_name told).symm,?_⟩
  unfold infoOf at told
  split_ifs at told with dots other dir
  · obtain ⟨name,-,rfl⟩ := map_eq_some_iff.mp told
    simp [kindOf,typeOf,dir]
  · obtain ⟨name,-,rfl⟩ := map_eq_some_iff.mp told
    cases typed : raw.type with
    | directory => exact absurd typed dir
    | other => exact absurd typed other
    | regularFile => simp [kindOf,typeOf]

theorem addressable_of_entry {name : String} {kind : EntryKind} (there : disk.directory path = some directory)
    (shown : Shown (path ++ [name])) (entry : Entry disk (path ++ [name]) kind) :
    ∃ entry ∈ addressable path directory, entry.name = name := by
  obtain ⟨found,again,raw,member,named,typed⟩ := entry_under.mp entry
  cases there.symm.trans again
  obtain ⟨above,last,same,open',parsed⟩ := shown
  obtain ⟨rfl,tail⟩ := append_inj' same rfl
  cases tail
  have decoded : String.fromUTF8? raw.name = some name := by
    rw [named,String.fromUTF8?,dif_pos name.isValidUTF8]
    rfl
  have told : infoOf raw = some ⟨name,decide (raw.type = .directory),
      if raw.type = .directory then 0 else raw.size,raw.modifiedUnix⟩ := by
    unfold infoOf
    rw [if_neg,if_neg,decoded,map_some]
    · rw [typed]
      cases kind <;> nofun
    · unfold entryName at parsed
      split_ifs at parsed with _ _ _ _ dots
      rw [named]
      rintro (same | same)
      all_goals exact dots (by simp [String.toByteArray_inj.mp (ByteArray.ext same)])
  obtain ⟨info,described,rfl⟩ : ∃ info, infoOf raw = some info ∧ info.name = name := ⟨_,told,rfl⟩
  refine ⟨info,mem_filterMap.mpr ⟨info,mem_filterMap.mpr ⟨raw,member,described⟩,?_⟩,rfl⟩
  simp [listed,open',parsed]

theorem Truthful.listing (truthful : Truthful env disk maxListing)
    (ran : listing MAX_PAGES (env.agent asking path) = some (.entries entries truncated)) : ∃ directory,
      disk.directory path = some directory ∧ (∀ entry ∈ entries, entry ∈ addressable path directory) ∧
      (truncated = false → ∀ entry ∈ addressable path directory, entry ∈ entries) := by
  have first : ∃ directory, disk.directory path = some directory := by
    cases answered : env.agent asking path 0 none with
    | notFound | thrown => simp [Files.listing,MAX_PAGES,pagesFrom,answered] at ran
    | listing found cut =>
      obtain ⟨directory,-,there,-⟩ := truthful asking path 0 none found cut answered
      exact ⟨directory,there⟩
  obtain ⟨directory,there⟩ := first
  have honest : Honest maxListing path directory (env.agent asking path) := by
    intro page after found cut answered
    obtain ⟨other,reading,again,perm,read⟩ := truthful asking path page after found cut answered
    cases there.symm.trans again
    exact ⟨reading,perm,read⟩
  exact ⟨directory,there,(listing_honest (disk.distinct path directory there) honest ran).2⟩

end Listings

section Losses

variable {env : Surroundings} {disk : ShareDisk} {maxListing : Nat} {pass : Pass} {folder : Folder} {table : Index}
variable {entries : List DirEntryInfo} {truncated : Bool} {id top : String} {row was : IndexRow}

theorem Aimed.lies (aimed : Aimed env table folder) (sound : Sound env disk table) (stored : table.lookup id = some row)
    (here : Here (spotOf env folder) row) : Lies env table id (folder.components ++ [row.name]) := by
  unfold Aimed at aimed
  split at aimed
  next named =>
    rw [aimed]
    exact .root stored here.organizationId here.shareId (here.parentId.trans named)
  next parent named =>
    have under : row.parentId = some parent := here.parentId.trans named
    obtain ⟨above,there,own,-⟩ := sound.housed id row parent stored here.organizationId under
    exact .under stored here.organizationId here.shareId under (aimed above there own).2

def Ready (env : Surroundings) (pass : Pass) : Prop :=
  pass.preloaded = none ∨ pass.preloaded = listing MAX_PAGES (env.agent .root [])

theorem Truthful.look (truthful : Truthful env disk maxListing) (ready : Ready env pass) (aimed : Aimed env table folder)
    (shown : (pass.look env folder).1 = some (.entries entries truncated)) : ∃ directory,
      disk.directory folder.components = some directory ∧ (∀ entry ∈ entries, entry ∈ addressable folder.components directory) ∧
      (truncated = false → ∀ entry ∈ addressable folder.components directory, entry ∈ entries) := by
  unfold Pass.look at shown
  split at shown
  next named early =>
    have root : folder.components = [] := by simpa [Aimed,named] using aimed
    rcases ready with none | same
    · rw [none] at early
      cases early
    · rw [root]
      exact truthful.listing ((early.symm.trans same).symm.trans shown)
  next => exact truthful.listing shown

variable (truthful : Truthful env disk maxListing) (ready : Ready env pass) (sound : Sound env disk pass.table)
variable (told : Told env disk pass folder) (shown : (pass.look env folder).1 = some (.entries entries truncated))

include truthful ready sound told shown

theorem Told.missed (missed : Missed (pass.sightOf env folder truncated) entries pass.table top was) :
    Lies env pass.table top (folder.components ++ [was.name]) ∧ ¬Entry disk (folder.components ++ [was.name]) was.kind := by
  have lies := told.aimed.lies sound missed.stored missed.here
  refine ⟨lies,fun entry => ?_⟩
  rcases missed.unseen with unlisted | ⟨other,sibling,present,differs,here,named⟩
  · obtain ⟨directory,there,-,whole⟩ := truthful.look ready told.aimed shown
    obtain ⟨info,member,named⟩ := addressable_of_entry there (sound.shown _ _ _ lies entry) entry
    exact unlisted ⟨info,whole missed.whole info member,named⟩
  · exact sound.single _ _ other sibling _ _ missed.stored present differs lies missed.may
      (here.organizationId.trans missed.here.organizationId.symm) (here.shareId.trans missed.here.shareId.symm)
      (here.parentId.trans missed.here.parentId.symm) named entry

theorem Told.lost (lost : Lost (pass.sightOf env folder truncated) entries pass.table top) : ∃ was parts,
    pass.table.lookup top = some was ∧ Lies env pass.table top parts ∧ ¬Entry disk parts was.kind ∧
      ¬Entry disk (BIN ++ parts) was.kind := by
  rcases lost with ⟨was,entry,stored,here,live,listed,named,differs⟩ | ⟨was,missed,unbinned⟩
  · have lies := told.aimed.lies sound stored here
    obtain ⟨directory,there,subset,-⟩ := truthful.look ready told.aimed shown
    have taken := entry_of_addressable there (subset entry listed)
    rw [named] at taken
    exact ⟨was,_,stored,lies,fun own => differs (entry_kind own taken),
      sound.separate _ _ _ _ stored live lies taken (Ne.symm differs)⟩
  · obtain ⟨lies,absent⟩ := told.missed truthful ready sound shown missed
    refine ⟨was,_,missed.stored,lies,absent,fun inBin => ?_⟩
    have whole : truncated = false := missed.whole
    subst whole
    have named := told.bin entries shown top was missed.stored missed.here absent inBin
    simp [Pass.sightOf,named] at unbinned

omit truthful ready sound told shown

theorem Safe.unmarked {now : IndexRow} (safe : Safe row table id) (stored : table.lookup id = some now) : ¬Marked row now := by
  obtain ⟨found,there,how⟩ := safe
  cases stored.symm.trans there
  rintro (⟨out,trashed⟩ | ⟨left,recycled⟩)
  · rcases how with ⟨clear,-⟩ | ⟨same,-⟩
    · exact trashed clear
    · exact trashed (same.trans out)
  · rcases how with ⟨-,clear⟩ | ⟨-,same⟩
    · rw [clear] at recycled
      cases recycled
    · rw [same,left] at recycled
      cases recycled

include truthful ready sound told shown

theorem Told.spares {start : Nat} {seen : List (String × IndexRow)} {state : Comparison}
    (accounted : Accounted {env.server with now := env.clock pass.turn} (pass.sightOf env folder truncated) entries
      pass.table start seen state) : Spares env disk pass.table state.table := by
  have fallen {id top : String} {row : IndexRow} (lost : Lost (pass.sightOf env folder truncated) entries pass.table top)
      (path : ReflTransGen (RightBelow (kids pass.table env.organizationId)) top id) (stored : pass.table.lookup id = some row) :
      ∃ parts, Lies env pass.table id parts ∧ ¬Entry disk parts row.kind ∧ ¬Entry disk (BIN ++ parts) row.kind := by
    obtain ⟨was,parts,there,lies,absent,unbinned⟩ := told.lost truthful ready sound shown lost
    obtain ⟨places,found,present,place,own⟩ := @absent_below env disk _ _ _ sound [] top was there lies absent path
    obtain ⟨again,found',present',place',bin⟩ := absent_below sound there lies unbinned path
    cases stored.symm.trans present
    cases stored.symm.trans present'
    cases place.unique place'
    exact ⟨places,place,own,bin⟩
  refine ⟨fun id row stored gone => ?_,fun id row now stored kept marked => ?_⟩
  · cases accounted.fate id row stored with
    | safe still =>
      obtain ⟨now,there,-⟩ := still
      rw [gone] at there
      cases there
    | trashed present => exact absurd gone present
    | removed top lost path => exact fallen lost path stored
  · cases accounted.fate id row stored with
    | safe still => exact absurd marked (still.unmarked kept)
    | trashed _ top was missed path =>
      obtain ⟨lies,absent⟩ := told.missed truthful ready sound shown missed
      obtain ⟨places,found,present,place,own⟩ := @absent_below env disk _ _ _ sound [] top was missed.stored lies absent path
      cases stored.symm.trans present
      exact ⟨places,place,own⟩
    | removed top lost path =>
      obtain ⟨parts,lies,own,-⟩ := fallen lost path stored
      exact ⟨parts,lies,own⟩

end Losses

section Turns

variable {env : Surroundings} {disk : ShareDisk} {maxListing : Nat} {before after last : Index} {drawn later latest : Nat}

theorem Spares.refl (table : Index) : Spares env disk table table where
  removed := fun id row stored gone => by
    rw [stored] at gone
    cases gone
  marked := fun id row now stored same marked => by
    cases stored.symm.trans same
    exact absurd marked ((Safe.refl stored).unmarked stored)

theorem Steady.refl (fresh : Fresh env.server drawn before) : Steady env before before drawn drawn where
  alike := fun id row was found stored => by
    cases stored.symm.trans found
    exact .refl row
  made := fun id row found absent => by
    rw [absent] at found
    cases found
  later := le_rfl
  fresh := fresh

theorem Steady.derived (fresh : Fresh env.server drawn before) (derived : Derived before after) :
    Steady env before after drawn drawn where
  alike := fun id row was found stored => by
    obtain ⟨old,present,alike⟩ := derived id row found
    cases stored.symm.trans present
    exact alike
  made := fun id row found absent => by
    obtain ⟨old,present,-⟩ := derived id row found
    rw [absent] at present
    cases present
  later := le_rfl
  fresh := fresh.derived derived

theorem Steady.gone (two : Steady env after last later latest) (fresh : Fresh env.server drawn before) (reached : drawn ≤ later)
    {id : String} {row : IndexRow} (stored : before.lookup id = some row) (gone : after.lookup id = none) :
    last.lookup id = none := by
  cases found : last.lookup id with
  | none => rfl
  | some now =>
    obtain ⟨next,past,rfl⟩ := two.made id now found gone
    rw [(fresh next (reached.trans past)).1] at stored
    cases stored

theorem Steady.trans (one : Steady env before after drawn later) (two : Steady env after last later latest)
    (fresh : Fresh env.server drawn before) : Steady env before last drawn latest where
  alike := fun id row was found stored => by
    cases between : after.lookup id with
    | none =>
      rw [two.gone fresh one.later stored between] at found
      cases found
    | some mid => exact (one.alike id mid was between stored).trans (two.alike id row mid found between)
  made := fun id row found absent => by
    cases between : after.lookup id with
    | none =>
      obtain ⟨next,past,named⟩ := two.made id row found between
      exact ⟨next,one.later.trans past,named⟩
    | some mid => exact one.made id mid between absent
  later := one.later.trans two.later
  fresh := two.fresh

theorem Marked.split {first third : IndexRow} (second : IndexRow) (marked : Marked first third) :
    Marked first second ∨ Marked second third := by
  rcases marked with ⟨out,trashed⟩ | ⟨left,recycled⟩
  · by_cases still : second.trashedAt = none
    · exact .inr (.inl ⟨still,trashed⟩)
    · exact .inl (.inl ⟨out,still⟩)
  · cases still : second.recycled with
    | false => exact .inr (.inr ⟨still,recycled⟩)
    | true => exact .inl (.inr ⟨left,still⟩)

theorem Spares.trans (one : Spares env disk before after) (two : Spares env disk after last) (sound : Sound env disk before)
    (steady : Steady env before after drawn later)
    (gone : ∀ id row, before.lookup id = some row → after.lookup id = none → last.lookup id = none) :
    Spares env disk before last := by
  refine ⟨fun id row stored absent => ?_,fun id row now stored kept marked => ?_⟩
  · cases between : after.lookup id with
    | none => exact one.removed id row stored between
    | some mid =>
      obtain ⟨parts,lies,own,bin⟩ := two.removed id mid between absent
      have kind := (steady.alike id mid row between stored).kind
      exact ⟨parts,lies.back sound steady.alike (by simp [stored]),kind ▸ own,kind ▸ bin⟩
  · cases between : after.lookup id with
    | none =>
      rw [gone id row stored between] at kept
      cases kept
    | some mid =>
      rcases marked.split mid with early | late
      · exact one.marked id row mid stored between early
      · obtain ⟨parts,lies,own⟩ := two.marked id mid now between kept late
        exact ⟨parts,lies.back sound steady.alike (by simp [stored]),(steady.alike id mid row between stored).kind ▸ own⟩

variable {pass : Pass} {folder : Folder} {rest : List Folder} {preloaded : Option Listing}

def Kept (env : Surroundings) (disk : ShareDisk) (pass next : Pass) : Prop :=
  Spares env disk pass.table next.table ∧ Steady env pass.table next.table pass.drawn next.drawn

theorem Kept.idle {next : Pass} (fresh : Fresh env.server pass.drawn pass.table) (same : next.table = pass.table)
    (later : pass.drawn ≤ next.drawn) : Kept env disk pass next := by
  have idle : Steady env pass.table pass.table pass.drawn pass.drawn := .refl fresh
  unfold Kept
  rw [same]
  exact ⟨.refl _,⟨idle.alike,idle.made,later,fun next past => fresh next (later.trans past)⟩⟩

theorem Told.missing (sound : Sound env disk pass.table) (fresh : Fresh env.server pass.drawn pass.table)
    (told : Told env disk pass folder) (shown : (pass.look env folder).1 = some .gone) :
    Kept env disk pass ({pass with queue := rest, preloaded := preloaded}.missing env folder).1 := by
  unfold Pass.missing
  split
  next => exact .idle fresh rfl le_rfl
  next id named =>
    have below {ids : List String} (grown : tree pass.table env.organizationId id = some ids) {other : String} {row : IndexRow}
        (member : other ∈ ids) (stored : pass.table.lookup other = some row) : ∃ parts, Lies env pass.table other parts ∧
          ¬Entry disk parts row.kind ∧
          (inTheBin env pass.turn folder.components = false → ¬Entry disk (BIN ++ parts) row.kind) := by
      obtain ⟨⟨top,there,own⟩,path⟩ := (mem_tree grown).mp member
      obtain ⟨kind,lies⟩ : top.kind = .folder ∧ Lies env pass.table id folder.components := by
        have aimed := told.aimed
        rw [Aimed,named] at aimed
        exact aimed top there own
      obtain ⟨absent,bin⟩ := told.gone shown id named (by rw [there]; rfl)
      obtain ⟨places,found,present,place,missing⟩ := @absent_below env disk _ _ _ sound [] id top there lies (kind ▸ absent) path
      cases stored.symm.trans present
      refine ⟨places,place,missing,fun empty => ?_⟩
      obtain ⟨again,found',present',place',unbinned⟩ := absent_below sound there lies (kind ▸ bin empty) path
      cases stored.symm.trans present'
      cases place.unique place'
      exact unbinned
    split_ifs with inBin
    · split
      next => exact .idle fresh rfl le_rfl
      next table count ran =>
        obtain ⟨ids,grown,lookups⟩ := sendSubtreeToTheBin_ok ran
        have derived : Derived pass.table table := by
          intro other row present
          rw [lookups] at present
          obtain ⟨was,there,rfl⟩ := map_eq_some_iff.mp present
          refine ⟨was,there,?_⟩
          split_ifs
          · exact binned_alike _ _
          · exact .refl was
        refine ⟨⟨fun other row stored gone => ?_,fun other row now stored kept marked => ?_⟩,.derived fresh derived⟩
        · rw [lookups,stored] at gone
          cases gone
        · by_cases member : other ∈ ids
          · obtain ⟨parts,lies,absent,-⟩ := below grown member stored
            exact ⟨parts,lies,absent⟩
          · rw [lookups,stored,map_some,if_neg (fun both => member both.1)] at kept
            cases kept
            exact absurd marked ((Safe.refl stored).unmarked stored)
    · split
      next => exact .idle fresh rfl le_rfl
      next table count ran =>
        obtain ⟨ids,grown,lookups⟩ := forget_ok ran
        have derived : Derived pass.table table := by
          intro other row present
          rw [lookups] at present
          split_ifs at present
          exact ⟨row,present,.refl row⟩
        refine ⟨⟨fun other row stored gone => ?_,fun other row now stored kept marked => ?_⟩,.derived fresh derived⟩
        · by_cases member : other ∈ ids
          · obtain ⟨parts,lies,absent,bin⟩ := below grown member stored
            exact ⟨parts,lies,absent,bin (by simpa using inBin)⟩
          · rw [lookups,if_neg member,stored] at gone
            cases gone
        · rw [lookups] at kept
          split_ifs at kept
          cases stored.symm.trans kept
          exact absurd marked ((Safe.refl stored).unmarked stored)

theorem rememberAll_homeless {fold : String → String} {server : Server} {sight : Sight} {id : String}
    (named : sight.spot.folder.id = some id) (left : List DirEntryInfo) (state : Comparison) (absent : state.table.lookup id = none) :
    (left.foldl (fun state entry => state.remembering fold server sight entry) state).table = state.table ∧
      state.drawn ≤ (left.foldl (fun state entry => state.remembering fold server sight entry) state).drawn := by
  induction left generalizing state with
  | nil => exact ⟨rfl,le_rfl⟩
  | cons entry left ih =>
    obtain ⟨-,drawn,⟨-,same⟩ | ⟨admitted,-⟩⟩ := remembering_spec fold server sight state entry
    · obtain ⟨rest,later⟩ := ih (state.remembering fold server sight entry) (same ▸ absent)
      exact ⟨rest.trans same,by rw [foldl_cons]; omega⟩
    · exact absurd (.inr (.inl ⟨id,named,absent⟩)) admitted

theorem compare_homeless {fold : String → String} {server : Server} {sight : Sight} {id : String} {entries : List DirEntryInfo}
    {table : Index} {drawn : Nat} (result : ReconcileResult) (queue : Option (List Folder)) (seen : Option (List String))
    (named : sight.spot.folder.id = some id) (absent : table.lookup id = none)
    (bare : ∀ known row, table.lookup known = some row → ¬Here sight.spot row) :
    (compare fold server sight entries table drawn result queue seen).1.table = table ∧
      drawn ≤ (compare fold server sight entries table drawn result queue seen).1.drawn := by
  have none_under : rowsUnder server table sight.spot = [] := by
    refine eq_nil_iff_forall_not_mem.mpr (fun known member => ?_)
    obtain ⟨stored,here⟩ := mem_rowsUnder.mp member
    exact bare _ _ stored here
  rw [compare,none_under]
  exact rememberAll_homeless named entries ⟨table,drawn,entries,result,queue,seen⟩ absent

theorem Told.read (truthful : Truthful env disk maxListing) (ready : Ready env pass) (sound : Sound env disk pass.table)
    (fresh : Fresh env.server pass.drawn pass.table) (told : Told env disk pass folder) {entries : List DirEntryInfo}
    {truncated : Bool} (shown : (pass.look env folder).1 = some (.entries entries truncated)) :
    Kept env disk pass ({pass with queue := rest, preloaded := preloaded}.read env folder entries truncated).1 := by
  unfold Pass.read
  by_cases settled : Settled (spotOf env folder) pass.table
  · obtain ⟨seen,accounted⟩ := @compare_accounted env.fold {env.server with now := env.clock pass.turn}
      (pass.sightOf env folder truncated) entries pass.table pass.drawn
      {pass.result with
        scanned := pass.result.scanned + 1
        truncated := pass.result.truncated + if truncated then 1 else 0} (some rest) (some pass.seen) settled fresh
    exact ⟨told.spares truthful ready sound shown accounted,
      ⟨accounted.others,accounted.made,accounted.later,accounted.fresh⟩⟩
  · simp only [Settled,not_forall,not_isSome_iff_eq_none] at settled
    obtain ⟨id,named,absent⟩ := settled
    obtain ⟨same,later⟩ := @compare_homeless env.fold {env.server with now := env.clock pass.turn}
      ({pass with queue := rest, preloaded := preloaded}.sightOf env folder truncated) id entries pass.table pass.drawn
      {pass.result with
        scanned := pass.result.scanned + 1
        truncated := pass.result.truncated + if truncated then 1 else 0} (some rest) (some pass.seen) named absent
      (fun known row stored here => by
        obtain ⟨above,there,-⟩ := sound.housed _ _ id stored here.organizationId (here.parentId.trans named)
        rw [absent] at there
        cases there)
    exact .idle fresh same later

structure Fit (env : Surroundings) (disk : ShareDisk) (pass : Pass) : Prop where
  sound : Sound env disk pass.table
  fresh : Fresh env.server pass.drawn pass.table
  told : ∀ folder rest, pass.queue = folder::rest → pass.result.scanned < BATCH → env.lease pass.turn = true →
    Told env disk pass folder

theorem look_frame (env : Surroundings) (pass : Pass) (folder : Folder) (rest : List Folder) : ∃ preloaded,
    (preloaded = none ∨ preloaded = pass.preloaded) ∧ {pass with queue := rest}.look env folder =
      ((pass.look env folder).1,{pass with queue := rest, preloaded := preloaded}) := by
  unfold Pass.look
  simp only
  split
  next => exact ⟨none,.inl rfl,rfl⟩
  next => exact ⟨pass.preloaded,.inr rfl,rfl⟩

theorem missing_preloaded (env : Surroundings) (pass : Pass) (folder : Folder) :
    (pass.missing env folder).1.preloaded = pass.preloaded := by
  unfold Pass.missing
  split
  next => rfl
  next =>
    split_ifs
    · split <;> rfl
    · split <;> rfl

theorem Fit.turn (truthful : Truthful env disk maxListing) (ready : Ready env pass) (fit : Fit env disk pass) :
    Kept env disk pass (pass.turnOver env).1 ∧ Ready env (pass.turnOver env).1 := by
  unfold Pass.turnOver
  split
  next => exact ⟨.idle fit.fresh rfl le_rfl,ready⟩
  next folder rest queued =>
    split_ifs with full lost
    · exact ⟨.idle fit.fresh rfl le_rfl,ready⟩
    · exact ⟨.idle fit.fresh rfl le_rfl,ready⟩
    · have told := fit.told folder rest queued (not_le.mp full) (by simpa using lost)
      obtain ⟨preloaded,once,looked⟩ := look_frame env pass folder rest
      have prepared : preloaded = none ∨ preloaded = listing MAX_PAGES (env.agent .root []) := by
        rcases once with none | same
        · exact .inl none
        · exact same ▸ ready
      rw [looked]
      split
      next same =>
        obtain ⟨-,rfl⟩ := Prod.mk.inj same
        exact ⟨.idle fit.fresh rfl le_rfl,prepared⟩
      next same =>
        obtain ⟨shown,rfl⟩ := Prod.mk.inj same
        refine ⟨told.missing fit.sound fit.fresh shown,?_⟩
        rw [Ready,missing_preloaded]
        exact prepared
      next same =>
        obtain ⟨shown,rfl⟩ := Prod.mk.inj same
        exact ⟨told.read truthful ready fit.sound fit.fresh shown,prepared⟩

end Turns

end Depsis.Files.Indexer
