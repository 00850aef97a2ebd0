import Depsis.Files.ReconcileSafe

/-! Whole passes: what they spare, and a bin that cannot be read. -/
namespace Depsis.Files.Indexer

open Depsis.Foundation Relation List

section

variable {env : Surroundings} {disk : ShareDisk} {maxListing drawn : Nat} {table after : Index}

private theorem ended {turns : Nat} {pass : Pass} {ending : Ending} (ran : passAfter env table drawn turns = (pass,some ending)) :
    passAfter env table drawn (turns + 1) = (pass,some ending) := by
  rw [passAfter,ran]

private theorem gone_at_once {pass : Pass} {ending : Ending} (ran : begin env table drawn = (pass,some ending)) (turns : Nat) :
    passAfter env table drawn turns = (pass,some ending) := by
  induction turns with
  | zero => exact ran
  | succ turns ih => exact ended ih

theorem passes_kept (truthful : Truthful env disk maxListing) (started : (begin env table drawn).2 = none)
    (fit : ∀ turns pass, passAfter env table drawn turns = (pass,none) → Fit env disk pass) (turns : Nat) :
    Spares env disk table (passAfter env table drawn turns).1.table ∧
      Steady env table (passAfter env table drawn turns).1.table drawn (passAfter env table drawn turns).1.drawn ∧
      Ready env (passAfter env table drawn turns).1 := by
  have first : Fit env disk (begin env table drawn).1 := fit 0 _ (Prod.ext rfl started)
  induction turns with
  | zero => exact ⟨.refl table,.refl first.fresh,.inr rfl⟩
  | succ turns ih =>
    obtain ⟨spares,steady,ready⟩ := ih
    rcases ran : passAfter env table drawn turns with ⟨pass,_ | ending⟩
    · rw [ran] at spares steady ready
      obtain ⟨⟨then',next⟩,later⟩ := (fit turns pass ran).turn truthful ready
      rw [passAfter,ran]
      exact ⟨spares.trans then' first.sound steady (fun id row stored => next.gone first.fresh steady.later stored),
        steady.trans next first.fresh,later⟩
    · rw [ended ran]
      rw [ran] at spares steady ready
      exact ⟨spares,steady,ready⟩

theorem Spares.markScanned (spares : Spares env disk table after) (ids : List String) (turn : Nat) :
    Spares env disk table (markScanned env after ids turn) := by
  refine ⟨fun id row stored gone => spares.removed id row stored ?_,fun id row now stored kept marked => ?_⟩
  · rw [Indexer.markScanned,AList.lookup_mapRows,Option.map_eq_none_iff] at gone
    exact gone
  · rw [Indexer.markScanned,AList.lookup_mapRows] at kept
    obtain ⟨was,there,rfl⟩ := Option.map_eq_some_iff.mp kept
    refine spares.marked id row was stored there ?_
    split_ifs at marked
    · exact marked
    · exact marked

/-- A pass that the agent does not mislead removes only rows whose entries are neither at
their place nor in the bin, and trashes only rows whose entries have left their place.
-/
theorem reconcile_spares (truthful : Truthful env disk maxListing)
    (fit : ∀ turns pass, passAfter env table drawn turns = (pass,none) → Fit env disk pass) :
    (∀ turns, Spares env disk table (passAfter env table drawn turns).1.table) ∧
      ∀ turns index answer, reconcile env table drawn turns = some (index,answer) → Spares env disk table index := by
  have turned (turns : Nat) : Spares env disk table (passAfter env table drawn turns).1.table := by
    rcases ran : begin env table drawn with ⟨pass,_ | ending⟩
    · exact (passes_kept truthful (by rw [ran]) fit turns).1
    · rw [gone_at_once ran turns]
      have same : pass.table = table := congrArg (fun pair => pair.1.table) ran.symm
      rw [same]
      exact .refl table
  refine ⟨turned,fun turns index answer done => ?_⟩
  have spares := turned turns
  unfold reconcile at done
  rcases ran : passAfter env table drawn turns with ⟨pass,_ | ending⟩
  · rw [ran] at done
    cases done
  · rw [ran] at done spares
    have left : index = (finish env pass ending).1 := congrArg Prod.fst (Option.some.inj done).symm
    rw [left]
    cases ending with
    | rootGone => exact spares
    | threw => exact spares
    | leaseLost => exact spares.markScanned _ _
    | through =>
      unfold finish
      simp only
      split_ifs
      all_goals exact spares.markScanned _ _

end

private def rootEntries : List RawEntry := [⟨BIN_DIR.toByteArray,.directory,0,0⟩]

private def binEntries : List RawEntry := [⟨"a".toByteArray,.regularFile,1,0⟩]

private def thrownAway : ShareDisk where
  directory := fun path => if path = [] then some rootEntries else if path = BIN then some binEntries else none
  distinct := fun path found there => by
    split_ifs at there
    all_goals
      cases there
      exact nodup_singleton _
  nested := fun path name => by
    have deeper : path ++ [name] ≠ [] := by simp
    have inRoot : path ++ [name] = BIN ↔ path = [] ∧ name = BIN_DIR := by
      constructor
      · intro same
        obtain ⟨rfl,last⟩ := append_inj' (same.trans (nil_append _).symm) rfl
        exact ⟨rfl,(singleton_inj.mp last)⟩
      · rintro ⟨rfl,rfl⟩
        rfl
    rw [if_neg deeper]
    by_cases root : path = []
    · subst root
      by_cases bin : name = BIN_DIR
      · simp [bin,BIN,rootEntries]
      · have away : ¬[] ++ [name] = BIN := fun same => bin (inRoot.mp same).2
        rw [if_neg away,if_pos rfl]
        simpa [rootEntries,String.toByteArray_inj] using Ne.symm bin
    · have away : ¬path ++ [name] = BIN := fun same => root (inRoot.mp same).1
      rw [if_neg away,if_neg root]
      by_cases bin : path = BIN
      · simp [bin,binEntries]
      · simp [bin]

private def loneRow : IndexRow := ⟨"o","s",none,.file,"a","/a",1,1000,none,false,none⟩

private def lone : Index := AList.insert "1" loneRow ∅

private theorem counting_distinct (first second : Nat)
    (same : String.ofList (List.replicate (first + 2) 'n') = String.ofList (List.replicate (second + 2) 'n')) :
    first = second := by
  have long := congrArg String.length same
  simp only [String.length_ofList,length_replicate] at long
  omega

private theorem counting_arranged (rows : List (String × IndexRow)) : rows.Perm rows := .refl rows

private def counting : Server where
  arrange := fun rows => rows
  arranged := counting_arranged
  newId := fun next => String.ofList (List.replicate (next + 2) 'n')
  distinct := counting_distinct
  now := fun _ => 7000

private def keeper (bin : PageAnswer) : Surroundings where
  organizationId := "o"
  shareId := "s"
  fold := fun name => name
  server := counting
  clock := fun _ _ => 7000
  collate := fun _ _ => true
  agent := fun _ path _ after =>
    if after.isSome then .thrown else if path = [] then .listing [] false else if path = BIN then bin else .notFound
  lease := fun _ => true
  started := 7000

private theorem root_page : listDirectory 1000 [] none rootEntries = ([],false) := by
  have one : entriesOf rootEntries = [⟨BIN_DIR,true,0,0⟩] := by decide +kernel
  rw [listDirectory,one,byName,mergeSort_singleton]
  decide +kernel

private theorem bin_page : listDirectory 1000 BIN none binEntries = ([⟨"a",false,1,0⟩],false) := by
  have one : entriesOf binEntries = [⟨"a",false,1,0⟩] := by decide +kernel
  rw [listDirectory,one,byName,mergeSort_singleton]
  decide +kernel

private theorem keeper_truthful {bin : PageAnswer} (honest : ∀ entries truncated, bin = .listing entries truncated →
    entries = [⟨"a",false,1,0⟩] ∧ truncated = false) : Truthful (keeper bin) thrownAway 1000 := by
  intro asking path page after entries truncated answered
  simp only [keeper] at answered
  split_ifs at answered with later root inBin
  · cases answered
    cases Option.not_isSome_iff_eq_none.mp later
    exact ⟨rootEntries,rootEntries,by simp [thrownAway,root],.refl _,root ▸ root_page⟩
  · obtain ⟨rfl,rfl⟩ := honest entries truncated answered
    cases Option.not_isSome_iff_eq_none.mp later
    exact ⟨binEntries,binEntries,by simp [thrownAway,inBin,BIN],.refl _,inBin ▸ bin_page⟩

private structure Only (table : Index) (row : IndexRow) : Prop where
  named : ∀ id found, table.lookup id = some found → id = "1" ∧ found = row
  organizationId : row.organizationId = "o"
  shareId : row.shareId = "s"
  parentId : row.parentId = none
  kind : row.kind = .file
  name : row.name = "a"

private theorem Only.lies {bin : PageAnswer} {table : Index} {row : IndexRow} {id : String} {parts : List String}
    (only : Only table row) (lies : Lies (keeper bin) table id parts) : parts = ["a"] := by
  cases lies with
  | root stored =>
    rw [(only.named _ _ stored).2,only.name]
  | under stored _ _ below =>
    rw [(only.named _ _ stored).2,only.parentId] at below
    cases below

private theorem nothing_left (kind : EntryKind) : ¬Entry thrownAway ["a"] kind := by
  intro entry
  obtain ⟨found,there,raw,member,named,-⟩ := (@entry_under thrownAway [] "a" kind).mp entry
  simp only [thrownAway,if_true,Option.some.injEq] at there
  subst there
  rw [mem_singleton.mp member,String.toByteArray_inj] at named
  exact absurd named (by decide)

private theorem Only.sound {bin : PageAnswer} {table : Index} {row : IndexRow} (only : Only table row) :
    Sound (keeper bin) thrownAway table where
  chained := fun id found stored own here => by
    refine ⟨_,.root stored own here ?_⟩
    rw [(only.named id found stored).2]
    exact only.parentId
  housed := fun id found parent stored _ below => by
    rw [(only.named id found stored).2,only.parentId] at below
    cases below
  shown := fun id parts kind lies entry => by
    rw [only.lies lies] at entry
    exact absurd entry (nothing_left kind)
  single := fun id found other sibling parts kind stored present differs => by
    rw [(only.named id found stored).1,(only.named other sibling present).1] at differs
    exact absurd rfl differs
  separate := fun id found parts kind _ _ lies entry => by
    rw [only.lies lies] at entry
    exact absurd entry (nothing_left kind)

private theorem Only.fresh {table : Index} {row : IndexRow} (only : Only table row) : Fresh counting 0 table := by
  intro next _
  refine ⟨?_,fun id found stored => ?_⟩
  · cases stored : table.lookup (counting.newId next) with
    | none => rfl
    | some found =>
      have long := congrArg String.length (only.named _ found stored).1
      have one : "1".length = 1 := by decide
      simp only [counting,String.length_ofList,length_replicate] at long
      omega
  · rw [(only.named id found stored).2,only.parentId]
    rintro ⟨⟩

private theorem lone_only : Only lone loneRow where
  named := fun id found stored => by
    rw [lone,AList.lookup_insert_eq] at stored
    split_ifs at stored with same
    · cases stored
      exact ⟨same,rfl⟩
    · cases stored
  organizationId := rfl
  shareId := rfl
  parentId := rfl
  kind := rfl
  name := rfl

private theorem keeper_begin (bin : PageAnswer) : begin (keeper bin) lone 0 =
    (⟨lone,0,⟨0,0,0,0,0,0,0⟩,[⟨none,[]⟩],[],[],0,some (.entries [] false),0⟩,none) := by
  have stalest : stalestFolders (keeper bin) lone = [] := by
    have none_folder : lone.rows.filter (fun known => known.2.organizationId = (keeper bin).organizationId &&
        known.2.shareId = (keeper bin).shareId && known.2.kind = .folder && known.2.trashedAt.isNone) = [] := rfl
    rw [stalestFolders,none_folder]
    simp [keeper,counting]
  rw [begin,stalest]
  rfl

/-- The bin's listing fails in the turn of the folder whose file it holds, and the row is forgotten. -/
theorem unreadable_bin_forgets : ¬∀ (env : Surroundings) (disk : ShareDisk) (maxListing : Nat) (table : Index) (drawn : Nat),
    Truthful env disk maxListing → Sound env disk table → Fresh env.server drawn table →
      ∀ turns, Spares env disk table (passAfter env table drawn turns).1.table := by
  intro always
  have spares := always (keeper .thrown) thrownAway 1000 lone 0 (keeper_truthful nofun) lone_only.sound lone_only.fresh 1
  have gone : (passAfter (keeper .thrown) lone 0 1).1.table.lookup "1" = none := by
    rw [passAfter,passAfter,keeper_begin]
    decide +kernel
  obtain ⟨parts,lies,-,unbinned⟩ := spares.removed "1" loneRow rfl gone
  rw [lone_only.lies lies] at unbinned
  exact unbinned ((@entry_under thrownAway BIN "a" .file).mpr ⟨binEntries,rfl,_,mem_singleton_self _,rfl,rfl⟩)

private def reader : Surroundings := keeper (.listing [⟨"a",false,1,0⟩] false)

private def opened : Pass := ⟨lone,0,⟨0,0,0,0,0,0,0⟩,[⟨none,[]⟩],[],[],0,some (.entries [] false),0⟩

private theorem reader_once : passAfter reader lone 0 1 = opened.turnOver reader := by
  rw [passAfter,passAfter,reader,keeper_begin]
  rfl

private theorem opened_turn : opened.turnOver reader = ((opened.turnOver reader).1,none) := by
  refine Prod.ext rfl ?_
  decide +kernel

private theorem turnOver_drained {pass : Pass} (drained : pass.queue = []) : pass.turnOver reader = (pass,some .through) := by
  rw [Pass.turnOver,drained]

private theorem reader_stops (turns : Nat) : ∃ pass, passAfter reader lone 0 (turns + 2) = (pass,some .through) := by
  induction turns with
  | zero =>
    have drained : (opened.turnOver reader).1.queue = [] := by decide +kernel
    refine ⟨(opened.turnOver reader).1,?_⟩
    rw [passAfter,reader_once,opened_turn]
    exact turnOver_drained drained
  | succ turns ih =>
    obtain ⟨pass,ran⟩ := ih
    exact ⟨pass,ended ran⟩

private theorem opened_only : Only (opened.turnOver reader).1.table (binned 7000 loneRow) where
  named := fun id found stored => by
    have all : (opened.turnOver reader).1.table.all (fun id row => id = "1" && row = binned 7000 loneRow) = true := by
      decide +kernel
    simpa using AList.all_iff.mp all id found stored
  organizationId := rfl
  shareId := rfl
  parentId := rfl
  kind := rfl
  name := rfl

theorem reconcile_spares_lone : Spares reader thrownAway lone (passAfter reader lone 0 1).1.table := by
  refine (@reconcile_spares reader thrownAway 1000 0 lone (keeper_truthful (fun entries truncated same => ?_))
    (fun turns pass ran => ?_)).1 1
  · cases same
    exact ⟨rfl,rfl⟩
  · rcases turns with _ | _ | turns
    · have first : pass = opened := congrArg Prod.fst (ran.symm.trans (keeper_begin _))
      subst first
      refine ⟨lone_only.sound,lone_only.fresh,fun folder rest queued _ _ => ?_⟩
      cases queued
      refine ⟨rfl,fun gone => ?_,fun entries shown id row stored _ _ _ => ?_⟩
      · cases gone
      · rw [(lone_only.named id row stored).2]
        decide +kernel
    · have next : pass = (opened.turnOver reader).1 := congrArg Prod.fst (ran.symm.trans reader_once)
      subst next
      have drawn : (opened.turnOver reader).1.drawn = 0 := by decide +kernel
      have drained : (opened.turnOver reader).1.queue = [] := by decide +kernel
      refine ⟨opened_only.sound,drawn ▸ opened_only.fresh,fun folder rest queued => ?_⟩
      rw [drained] at queued
      cases queued
    · obtain ⟨last,stopped⟩ := reader_stops turns
      rw [stopped] at ran
      cases ran

end Depsis.Files.Indexer
