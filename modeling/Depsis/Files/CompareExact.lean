import Depsis.Files.CompareLosses

/-! A comparison repeated, and one with a listing that was cut short. -/
namespace Depsis.Files.Indexer

open Depsis.Foundation Depsis.Foundation.Levels Relation List

variable {fold : String → String} {server second : Server} {sight : Sight} {entries : List DirEntryInfo}
variable {before after : Index}

inductive Calm (sight : Sight) (entries : List DirEntryInfo) (row : IndexRow) : Prop where
  | live (out : row.trashedAt = none) (entry : DirEntryInfo) (listed : entry ∈ entries)
    (named : entry.name = row.name) (same : row.kind = kindOf entry)
  | binned (trashed : row.trashedAt.isSome = true) (recycled : row.recycled = true) (unlisted : ¬Listed entries row.name)
    (inBin : sight.bin.contains row.name = true)
  | inPlace (trashed : row.trashedAt.isSome = true) (left : row.recycled = false)

/-- A file's row the comparison wrote: the trigger has put the moment of the write where
the file's own time should be.
-/
def Wrote (server : Server) (entries : List DirEntryInfo) (before after : Index) (id : String) : Prop :=
  ∃ was row, before.lookup id = some was ∧ after.lookup id = some row ∧ ∃ entry ∈ entries, entry.name = was.name ∧
    (row = refreshed (server.now id) entry was ∨ row = restored (server.now id) was)

section Outcomes

variable {id : String} {row kept : IndexRow}

private theorem unlisted_of_none {name : String} (found : entries.find? (fun entry => entry.name = name) = none) :
    ¬Listed entries name := by
  rintro ⟨entry,listed,same⟩
  simpa [same] using find?_eq_none.mp found entry listed

theorem outcome_calm (here : Here sight.spot row) (faithful : Returns sight.spot entries row →
      ∀ entry ∈ entries, entry.name = row.name → row.kind = kindOf entry)
    (became : outcome server sight entries id row = some kept) : Calm sight entries kept := by
  unfold outcome at became
  split at became
  next entry found live =>
    have listed := mem_of_find?_eq_some found
    have named : entry.name = row.name := by simpa using find?_some found
    split_ifs at became with differs idle
    all_goals
      cases became
      exact .live live entry listed named (not_not.mp differs)
  next found live =>
    split_ifs at became with inBin
    cases became
    exact .binned rfl rfl (unlisted_of_none found) inBin
  next entry moment found when =>
    have listed := mem_of_find?_eq_some found
    have named : entry.name = row.name := by simpa using find?_some found
    cases became
    split_ifs with recycled
    · exact .live rfl entry listed named (faithful ⟨here,by simp [when],recycled,⟨entry,listed,named⟩⟩ entry listed named)
    · exact .inPlace (by simp [when]) (by simpa using recycled)
  next moment found when =>
    split_ifs at became with gone
    cases became
    by_cases recycled : row.recycled = true
    · exact .binned (by simp [when]) recycled (unlisted_of_none found) (by simpa [recycled] using gone)
    · exact .inPlace (by simp [when]) (by simpa using recycled)

theorem calm_outcome (server : Server) (id : String) (distinct : (entries.map DirEntryInfo.name).Nodup) (calm : Calm sight entries row) :
    outcome server sight entries id row = some row ∨ ∃ entry ∈ entries, entry.name = row.name ∧ row.trashedAt = none ∧
      entry.directory = false ∧ upToDate row entry = false ∧
      outcome server sight entries id row = some (refreshed (server.now id) entry row) := by
  cases calm with
  | live out entry listed named same =>
    simp only [outcome,find_entry distinct listed named,out]
    rw [if_neg (not_not.mpr same)]
    split_ifs with idle
    · exact .inl rfl
    · obtain ⟨file,stale⟩ := Bool.or_eq_false_iff.mp (Bool.eq_false_iff.mpr idle)
      exact .inr ⟨entry,listed,named,trivial,file,stale,rfl⟩
  | binned trashed recycled unlisted inBin =>
    obtain ⟨moment,when⟩ := Option.isSome_iff_exists.mp trashed
    cases found : entries.find? (fun entry => entry.name = row.name) with
    | none => simp only [outcome,found,when,inBin,Bool.not_true,Bool.and_false,Bool.false_eq_true,if_false,true_or]
    | some entry =>
      exact absurd ⟨entry,mem_of_find?_eq_some found,by simpa using find?_some found⟩ unlisted
  | inPlace trashed left =>
    obtain ⟨moment,when⟩ := Option.isSome_iff_exists.mp trashed
    refine .inl ?_
    simp only [outcome,when,left]
    split <;> simp_all

theorem calm_stays (distinct : (entries.map DirEntryInfo.name).Nodup) (calm : Calm sight entries row) :
    Stays server sight entries id row := by
  rcases calm_outcome server id distinct calm with same | ⟨entry,-,-,out,-,-,became⟩
  · exact ⟨row,same,fun live => live⟩
  · exact ⟨_,became,fun _ => out⟩

theorem outcome_inPlace (became : outcome server sight entries id row = some kept) (trashed : kept.trashedAt.isSome = true)
    (left : kept.recycled = false) : kept = row := by
  unfold outcome at became
  split at became
  next live =>
    split_ifs at became
    · cases became
      rfl
    · cases became
      rw [refreshed,setUpdatedAt] at trashed
      simp [live] at trashed
  next =>
    split_ifs at became
    cases became
    cases left
  next =>
    cases became
    split_ifs at trashed ⊢
    · cases trashed
    · rfl
  next =>
    split_ifs at became
    cases became
    rfl

theorem rowOf_upToDate {entry : DirEntryInfo} (file : entry.directory = false) :
    upToDate (rowOf sight.spot entry) entry = true := by
  simp [upToDate,rowOf,file]

theorem outcome_wrote {entry : DirEntryInfo} (distinct : (entries.map DirEntryInfo.name).Nodup) (listed : entry ∈ entries)
    (named : entry.name = row.name) (live : kept.trashedAt = none) (file : entry.directory = false)
    (stale : upToDate kept entry = false) (became : outcome server sight entries id row = some kept) :
    kept = refreshed (server.now id) entry row ∨ kept = restored (server.now id) row := by
  simp only [outcome,find_entry distinct listed named] at became
  split at became
  next other found out =>
    cases found
    split_ifs at became with differs idle
    · cases became
      rw [file,stale] at idle
      cases idle
    · cases became
      exact .inl rfl
  next found _ => cases found
  next moment found when =>
    cases became
    split_ifs at live ⊢
    · exact .inr rfl
    · rw [when] at live
      cases live
  next found _ => cases found

end Outcomes

section Again

variable (compared : Compared fold server sight entries before after)

include compared

theorem Compared.origin {id : String} {row : IndexRow} (stored : after.lookup id = some row) (here : Here sight.spot row) :
    (∃ was, before.lookup id = some was ∧ Here sight.spot was ∧ outcome server sight entries id was = some row) ∨
      (before.lookup id = none ∧ ∃ entry ∈ entries, row = rowOf sight.spot entry ∧
        ∀ other was, before.lookup other = some was → Here sight.spot was → was.name = entry.name → was.trashedAt = none) := by
  cases known : before.lookup id with
  | none =>
    obtain ⟨entry,listed,made,alone⟩ := compared.made id row stored known
    exact .inr ⟨rfl,entry,listed,made,fun other was present under same => (alone other was present under same).1⟩
  | some was =>
    have alike := compared.others id row was stored known
    have under : Here sight.spot was :=
      ⟨alike.organizationId ▸ here.1,alike.shareId ▸ here.2,alike.parentId ▸ here.3⟩
    exact .inl ⟨was,rfl,under,(compared.known id was known under).symm.trans stored⟩

variable (sure : Uncontested fold sight.spot entries before)

include sure

theorem Compared.calm {id : String} {row : IndexRow} (stored : after.lookup id = some row) (here : Here sight.spot row) :
    Calm sight entries row := by
  rcases compared.origin stored here with ⟨was,known,under,became⟩ | ⟨-,entry,listed,rfl,-⟩
  · exact outcome_calm under (sure.faithful id was known) became
  · exact .live rfl entry listed rfl rfl

theorem Compared.uncontested : Uncontested fold sight.spot entries after := by
  have never {id : String} {row : IndexRow} (stored : after.lookup id = some row) : ¬Returns sight.spot entries row := by
    intro returns
    cases compared.calm sure stored returns.here with
    | live out => simpa [out] using returns.trashed
    | binned _ _ unlisted => exact unlisted returns.listed
    | inPlace _ left => simpa [left] using returns.recycled
  refine ⟨fun id row _ _ stored _ _ returns => absurd returns (never stored),fun id row stored returns =>
    absurd returns (never stored),?_⟩
  intro id row other sibling stored present here under trashed left listed same
  rcases compared.origin stored here with ⟨was,known,there,became⟩ | ⟨-,entry,-,rfl,-⟩
  · cases outcome_inPlace became trashed left
    rcases compared.origin present under with ⟨twin,shown,below,turned⟩ | ⟨-,entry,-,rfl,alone⟩
    · have named : twin.name = row.name := (outcome_alike turned).name.symm.trans same
      obtain ⟨out,kept⟩ := sure.inPlace _ _ _ _ known shown there below trashed left listed named
      obtain ⟨moment,when⟩ := Option.isSome_iff_exists.mp out
      have still : outcome server sight entries other twin = some twin := by
        simp only [outcome,when,kept]
        split <;> simp_all
      cases still.symm.trans turned
      exact ⟨out,kept⟩
    · have live := alone id row known there same.symm
      rw [live] at trashed
      cases trashed
  · cases trashed

theorem Compared.single {id other : String} {row sibling : IndexRow} (stored : after.lookup id = some row)
    (present : after.lookup other = some sibling) (here : Here sight.spot row) (under : Here sight.spot sibling)
    (live : row.trashedAt = none) (listed : Listed entries row.name) (same : sibling.name = row.name) : other = id :=
  sole compared.unique (compared.uncontested sure) stored present here under same listed (.inl live)

theorem Compared.again {drawn : Nat} (result : ReconcileResult) (queue : Option (List Folder)) (seen : Option (List String))
    (distinct : (entries.map DirEntryInfo.name).Nodup) (proper : ∀ entry ∈ entries, nameComponent entry.name = true)
    (whole : sight.truncated = false) (fresh : Fresh second drawn after) :
    ∃ again, compare fold second sight entries after drawn result queue seen = (again,none) ∧
      ∀ id, again.table.lookup id = after.lookup id ∨ (Wrote server entries before after id ∧
        ∃ row entry, after.lookup id = some row ∧ again.table.lookup id = some (refreshed (second.now id) entry row)) := by
  obtain ⟨again,ran,next⟩ := compare_complete result queue seen compared.unique compared.rooted
    compared.settled fresh distinct proper (compared.uncontested sure) whole
  have living {id : String} {row : IndexRow} (stored : after.lookup id = some row) (live : row.trashedAt = none) :
      ∃ later, again.table.lookup id = some later ∧ later.trashedAt = none ∧ Alike row later := by
    by_cases here : Here sight.spot row
    · have known := next.known id row stored here
      rcases calm_outcome second id distinct (compared.calm sure stored here) with
        same | ⟨entry,-,-,out,-,-,became⟩
      · exact ⟨row,known.trans same,live,.refl row⟩
      · exact ⟨_,known.trans became,out,refreshed_alike _ _ _⟩
    · refine ⟨row,next.still (fun other sibling present under => ?_) id row stored here,live,.refl row⟩
      exact calm_stays distinct (compared.calm sure present under)
  refine ⟨again,ran,fun id => ?_⟩
  cases stored : after.lookup id with
  | some row =>
    by_cases here : Here sight.spot row
    · have known := next.known id row stored here
      rcases calm_outcome second id distinct (compared.calm sure stored here) with
        same | ⟨entry,listed,named,out,file,stale,became⟩
      · exact .inl (known.trans same)
      · refine .inr ⟨?_,row,entry,rfl,known.trans became⟩
        rcases compared.origin stored here with ⟨was,old,-,turned⟩ | ⟨-,other,member,rfl,-⟩
        · have same : entry.name = was.name := named.trans (outcome_alike turned).name
          exact ⟨was,row,old,stored,entry,listed,same,outcome_wrote distinct listed same out file stale turned⟩
        · cases inj_on_of_nodup_map distinct listed member named
          rw [rowOf_upToDate file] at stale
          cases stale
    · refine .inl (next.still (fun other sibling present under => ?_) id row stored here)
      exact calm_stays distinct (compared.calm sure present under)
  | none =>
    cases found : again.table.lookup id with
    | none => exact .inl rfl
    | some row =>
      exfalso
      obtain ⟨entry,listed,rfl,alone⟩ := next.made id row found stored
      rcases compared.held entry listed with ⟨other,sibling,present,under,named,⟨-,same⟩ | ⟨out,-⟩⟩ | ⟨other,sibling,present,live,place⟩
      · exact (alone other sibling present under named).2 same
      · rw [(alone other sibling present under named).1] at out
        cases out
      · obtain ⟨later,shown,out,alike⟩ := living present live
        have same := next.unique _ _ _ _ shown found out rfl (alike.place.trans place)
        rw [same,stored] at present
        cases present

end Again

structure Exact (fold : String → String) (server : Server) (sight : Sight) (entries : List DirEntryInfo) (before : Index)
    (ran : Comparison × Option Fault) : Prop where
  completes : ran.2 = none
  kept : ∀ id row, before.lookup id = some row → Here sight.spot row → row.trashedAt = none → ∀ entry ∈ entries,
    entry.name = row.name → row.kind = kindOf entry →
      ran.1.table.lookup id = some row ∨ ran.1.table.lookup id = some (refreshed (server.now id) entry row)
  /-- One live row stands for an entry, or none and only rows trashed where they are, unless
  the entry's place is taken by a name that folds to the same. -/
  accounted : ∀ entry ∈ entries, (∃ id row, ran.1.table.lookup id = some row ∧ Here sight.spot row ∧
      row.name = entry.name ∧ row.trashedAt = none ∧ row.kind = kindOf entry ∧ ∀ other sibling,
        ran.1.table.lookup other = some sibling → Here sight.spot sibling → sibling.name = entry.name → other = id) ∨
    (∃ id row, ran.1.table.lookup id = some row ∧ Here sight.spot row ∧ row.name = entry.name ∧
      ∀ other sibling, ran.1.table.lookup other = some sibling → Here sight.spot sibling → sibling.name = entry.name →
        sibling.trashedAt.isSome = true ∧ sibling.recycled = false) ∨
    ∃ id row, ran.1.table.lookup id = some row ∧ row.trashedAt = none ∧ placeOf fold row = placeOf fold (rowOf sight.spot entry)
  created : ∀ id row, ran.1.table.lookup id = some row → before.lookup id = none → ∃ entry ∈ entries,
    row = rowOf sight.spot entry ∧ ∀ other was, before.lookup other = some was → Here sight.spot was →
      was.name = entry.name → was.trashedAt = none ∧ was.kind ≠ kindOf entry
  again : ∀ (second : Server) (drawn : Nat) (result : ReconcileResult) (queue : Option (List Folder))
    (seen : Option (List String)), Fresh second drawn ran.1.table →
      ∃ again, compare fold second sight entries ran.1.table drawn result queue seen = (again,none) ∧
        ∀ id, again.table.lookup id = ran.1.table.lookup id ∨ (Wrote server entries before ran.1.table id ∧
          ∃ row entry, ran.1.table.lookup id = some row ∧ again.table.lookup id = some (refreshed (second.now id) entry row))

theorem Compared.exact {ran : Comparison} (compared : Compared fold server sight entries before ran.table)
    (sure : Uncontested fold sight.spot entries before) (distinct : (entries.map DirEntryInfo.name).Nodup)
    (proper : ∀ entry ∈ entries, nameComponent entry.name = true) (whole : sight.truncated = false) :
    Exact fold server sight entries before (ran,none) := by
  refine ⟨rfl,fun id row stored here live entry listed named same => ?_,fun entry listed => ?_,compared.made,
    fun second drawn result queue seen fresh => compared.again sure result queue seen distinct proper whole fresh⟩
  · have known := compared.known id row stored here
    simp only [outcome,find_entry distinct listed named,live] at known
    rw [if_neg (not_not.mpr same)] at known
    split_ifs at known
    · exact .inl known
    · exact .inr known
  · rcases compared.held entry listed with ⟨id,row,stored,here,named,⟨live,same⟩ | ⟨trashed,left⟩⟩ | taken
    · refine .inl ⟨id,row,stored,here,named,live,same,fun other sibling present under alike => ?_⟩
      exact compared.single sure stored present here under live ⟨entry,listed,named.symm⟩ (alike.trans named.symm)
    · refine .inr (.inl ⟨id,row,stored,here,named,fun other sibling present under alike => ?_⟩)
      exact (compared.uncontested sure).inPlace _ _ _ _ stored present here under trashed left ⟨entry,listed,named.symm⟩
        (alike.trans named.symm)
    · exact .inr (.inr taken)

private def folded (name : String) : String := if name = "A" then "a" else name

private def plain : Server where
  arrange := fun rows => rows
  arranged := fun rows => .refl rows
  newId := fun next => String.ofList (List.replicate (next + 2) 'n')
  distinct := fun first second same => by
    have long := congrArg String.length same
    simpa using long
  now := fun _ => 7000

private def atRoot (truncated : Bool) : Sight := ⟨⟨"o","s",⟨none,[]⟩⟩,truncated,[]⟩

private def report : IndexRow := ⟨"o","s",none,.file,"a","/a",1,1000,none,false,none⟩

private def reports : Index := AList.insert "1" report ∅

private theorem reports_lookup {id : String} {row : IndexRow} (stored : reports.lookup id = some row) :
    id = "1" ∧ row = report := by
  rw [reports,AList.lookup_insert_eq] at stored
  split_ifs at stored with same
  · cases stored
    exact ⟨same,rfl⟩
  · cases stored

private theorem reports_unique : Unique folded reports := by
  intro id row other sibling stored present _ _ _
  rw [(reports_lookup stored).1,(reports_lookup present).1]

private theorem reports_fresh : Fresh plain 0 reports := by
  intro next _
  refine ⟨?_,fun id row stored => ?_⟩
  · cases found : reports.lookup (plain.newId next) with
    | none => rfl
    | some row =>
      have long := congrArg String.length (reports_lookup found).1
      have one : "1".length = 1 := by decide
      simp only [plain,String.length_ofList,length_replicate] at long
      omega
  · rw [(reports_lookup stored).2]
    nofun

private def nothing : ReconcileResult := ⟨0,0,0,0,0,0,0⟩

end Depsis.Files.Indexer
