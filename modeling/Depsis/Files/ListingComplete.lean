import Depsis.Files.Listing

/-! Reading a folder or the trash page after page gives each row once, in order. -/
namespace Depsis.Files.Listing

open Depsis.Foundation Depsis.Foundation.Keyset List Option Bool

variable {locale : Locale} {entries : Table String FileRow} {organizationId shareId : String} {parentId : Option String}
variable {sort : SortOrder} {direction : SortDirection}

theorem same_column (step : Step) (cur entry : Entry) :
    Condition.holds locale cur entry (.equal step.col) = (step.column locale).same cur entry := by
  obtain ⟨col,desc⟩ := step
  cases col <;> rfl

theorem any_branches (steps : List Step) (equal : List Condition) (cur entry : Entry) :
    (branches equal steps).any (fun branch => branch.all (Condition.holds locale cur entry)) =
      (equal.all (Condition.holds locale cur entry) &&
        lexicographic (steps.map (Step.column locale)) cur entry) := by
  induction steps generalizing equal with
  | nil => simp [branches,lexicographic]
  | cons step rest ih =>
    simp only [branches,any_cons,all_append,all_cons,all_nil,Bool.and_true,ih,map_cons,lexicographic,
      same_column]
    rw [Bool.and_assoc,← Bool.and_or_distrib_left]
    rfl

theorem selects_eq (cur entry : Entry) : (sortFragments sort direction).selects locale cur entry =
    lexicographic ((sortFragments sort direction).columns locale) cur entry := by
  simp only [Fragments.selects,sortFragments,any_branches,all_nil,Bool.true_and,Fragments.columns,map_cons,
    lexicographic,same_column ⟨.kind,false⟩]
  rfl

theorem tenant_nodup : (tenant entries organizationId).rows.Nodup := List.Nodup.of_map _ (AList.rows_nodup _)

theorem lookup_tenant {entry : Entry} (member : entry ∈ (tenant entries organizationId).rows) :
    (tenant entries organizationId).lookup entry.1 = some entry.2 := AList.mem_rows.mp member

theorem same_id {first second : Entry} (left : first ∈ (tenant entries organizationId).rows)
    (right : second ∈ (tenant entries organizationId).rows) (same : first.1 = second.1) : first = second := by
  have one := lookup_tenant left
  rw [same,lookup_tenant right] at one
  exact Prod.ext same (Option.some.inj one).symm

theorem folder_tenant {entry : Entry} (member : entry ∈ folderRows entries organizationId shareId parentId) :
    entry ∈ (tenant entries organizationId).rows := (mem_filter.mp member).1

theorem trash_tenant {entry : Entry} (member : entry ∈ trashRows entries organizationId shareId) :
    entry ∈ (tenant entries organizationId).rows := (mem_filter.mp member).1

theorem told_of_id {columns : List (Column Entry)} {wanted : List Entry} {column : Column Entry} (listed : column ∈ columns)
    (names : ∀ first second, column.same first second = true → first.1 = second.1)
    (stored : ∀ entry ∈ wanted, entry ∈ (tenant entries organizationId).rows) : Keyset.Told columns wanted :=
  fun first left second right same => same_id (stored first left) (stored second right) (names first second (same column listed))

theorem told_folder : Keyset.Told ((sortFragments sort direction).columns locale) (folderRows entries organizationId shareId parentId) := by
  have listed : Step.column locale ⟨.id,false⟩ ∈ (sortFragments sort direction).columns locale := by
    simp [Fragments.columns,sortFragments,chain]
  exact told_of_id listed (fun first second same => Column.same_iff.mp same) (fun _ member => folder_tenant member)

theorem told_trash : Keyset.Told trashColumns (trashRows entries organizationId shareId) := by
  exact told_of_id (mem_cons_of_mem _ mem_cons_self) (fun first second same => Column.same_iff.mp same)
    (fun _ member => trash_tenant member)

theorem trashedBefore_eq {cur entry : Entry} (known : cur ∈ trashRows entries organizationId shareId)
    (member : entry ∈ trashRows entries organizationId shareId) :
    trashedBefore entry cur = lexicographic trashColumns cur entry := by
  obtain ⟨mark,marked⟩ := isSome_iff_exists.mp (and_eq_true_iff.mp (mem_filter.mp known).2).2
  obtain ⟨trashed,dropped⟩ := isSome_iff_exists.mp (and_eq_true_iff.mp (mem_filter.mp member).2).2
  simp only [trashedBefore,marked,dropped,trashColumns,lexicographic,Column.before,Column.same,numbers,uuids,getD_some]
  rw [show decide (trashed = mark) = decide (mark = trashed) from decide_eq_decide.mpr eq_comm]
  simp

section Pages

variable {Item : Type} {shown : Entry → Item} {columns : List (Column Entry)} {wanted : List Entry} {limit : Nat}

theorem page_cut (rest : List Entry) : page shown (rest.take (limit + 1)) limit =
    ⟨(rest.take limit).map shown,if limit < rest.length then (rest.take limit).getLast?.map Prod.fst else none,
      decide (limit < rest.length)⟩ := by
  have more : limit < (rest.take (limit + 1)).length ↔ limit < rest.length := by
    rw [length_take]
    omega
  have cut : (rest.take (limit + 1)).take limit = rest.take limit := by
    rw [take_take,Nat.min_eq_left (Nat.le_succ limit)]
  by_cases longer : limit < rest.length
  · simp only [page,more,longer,decide_true,if_true,cut]
  · have whole : rest.take (limit + 1) = rest.take limit := by
      rw [take_of_length_le (by omega),take_of_length_le (by omega)]
    have short : ¬ limit < (rest.take (limit + 1)).length := fun held => longer (more.mp held)
    unfold page
    rw [decide_eq_false short]
    simp only [false_eq_true,if_false,longer,decide_false,whole]

def taken (answer : FileEntryPage Item) : List Item × Option String := (answer.items,answer.nextCursor)

theorem page_taken (told : Keyset.Told columns wanted) (distinct : wanted.Nodup) (after : Option Entry) :
    taken (page shown ((sorted columns (match after with
      | none => wanted
      | some cur => wanted.filter (fun entry => lexicographic columns cur entry))).take (limit + 1)) limit) =
      ((Cursor.page (lexicographic columns) limit (sorted columns wanted) after).1.map shown,
        (Cursor.page (lexicographic columns) limit (sorted columns wanted) after).2.map Prod.fst) := by
  have rest : sorted columns (match after with
      | none => wanted
      | some cur => wanted.filter (fun entry => lexicographic columns cur entry)) =
        Cursor.remaining (lexicographic columns) (sorted columns wanted) after := by
    cases after with
    | none => rfl
    | some cur => exact sorted_filter told distinct _
  have cut (left : List Entry) : (left.take limit).length < left.length ↔ limit < left.length := by
    rw [length_take]
    omega
  rw [rest,page_cut]
  simp only [taken,Cursor.page,cut]
  split <;> rfl

structure Complete (columns : List (Column Entry)) (selects : Entry → Entry → Bool) (wanted : List Entry)
    (shown : Entry → Item) (fetch : Option String → FileEntryPage Item) : Prop where
  agree : ∀ cur ∈ wanted, ∀ entry ∈ wanted, selects cur entry = lexicographic columns cur entry
  irreflexive : ∀ entry, lexicographic columns entry entry = false
  transitive : ∀ first second third, lexicographic columns first second = true → lexicographic columns second third = true →
    lexicographic columns first third = true
  total : ∀ first ∈ wanted, ∀ second ∈ wanted, first ≠ second →
    lexicographic columns first second = true ∨ lexicographic columns second first = true
  read : ∃ listed : List Entry, listed.Perm wanted ∧ listed.Nodup ∧
    listed.Pairwise (fun first second => lexicographic columns first second = true) ∧
    ∀ requests, wanted.length < requests →
      Cursor.follow (fun cursor => taken (fetch cursor)) requests none = some (listed.map shown)

theorem complete_of_pages {selects : Entry → Entry → Bool} {fetch : Option String → FileEntryPage Item}
    (told : Keyset.Told columns wanted) (distinct : wanted.Nodup) (room : 0 < limit)
    (agree : ∀ cur ∈ wanted, ∀ entry ∈ wanted, selects cur entry = lexicographic columns cur entry)
    (fetched : ∀ after : Option Entry, (∀ cur, after = some cur → cur ∈ wanted) → taken (fetch (after.map Prod.fst)) =
      taken (page shown ((sorted columns (match after with
        | none => wanted
        | some cur => wanted.filter (fun entry => lexicographic columns cur entry))).take (limit + 1)) limit)) :
    Complete columns selects wanted shown fetch where
  agree := agree
  irreflexive := lexicographic_irreflexive
  transitive := fun _ _ _ => lexicographic_transitive
  total := by
    intro first left second right apart
    by_contra neither
    obtain ⟨one,two⟩ := not_or.mp neither
    exact apart (told first left second right (same_of_neither (of_not_eq_true one) (of_not_eq_true two)))
  read := by
    refine ⟨sorted columns wanted,sorted_perm wanted,(sorted_perm wanted).nodup_iff.mpr distinct,sorted_pairwise told distinct,?_⟩
    intro requests enough
    have pages : ∀ after : Option Entry, (∀ cur, after = some cur → cur ∈ sorted columns wanted) →
        taken (fetch (after.map Prod.fst)) =
          ((Cursor.page (lexicographic columns) limit (sorted columns wanted) after).1.map shown,
            (Cursor.page (lexicographic columns) limit (sorted columns wanted) after).2.map Prod.fst) := by
      intro after known
      rw [fetched after (fun cur same => mem_sorted.mp (known cur same)),page_taken told distinct]
    have outside : ∀ item, (none : Option Entry) = some item → item ∈ sorted columns wanted := nofun
    have time : (Cursor.remaining (lexicographic columns) (sorted columns wanted) none).length < requests := by
      change (sorted columns wanted).length < requests
      rw [(sorted_perm wanted).length_eq]
      exact enough
    exact @Cursor.follow_complete Entry (lexicographic columns) String Item (fun cursor => taken (fetch cursor)) Prod.fst shown
      limit (sorted columns wanted) room (sorted_pairwise told distinct) lexicographic_irreflexive
      (fun _ _ => lexicographic_asymmetric) (fun _ _ _ => lexicographic_transitive) pages requests none outside time

end Pages

/-- Every folder, sort key, direction and page size, and the trash. -/
theorem listing_complete (locale : Locale) (entries : Table String FileRow) (organizationId shareId : String)
    (parentId : Option String) (sort : SortOrder) (direction : Option SortDirection) (limit : Nat) (room : 0 < limit) :
    Complete ((sortFragments sort (direction.getD (DEFAULT_DIRECTION sort))).columns locale)
      ((sortFragments sort (direction.getD (DEFAULT_DIRECTION sort))).selects locale)
      (folderRows entries organizationId shareId parentId) (counted (tenant entries organizationId))
      (fun cursor => (list locale entries organizationId shareId parentId cursor limit sort direction).toFileEntryPage) ∧
    Complete trashColumns (fun cur entry => trashedBefore entry cur) (trashRows entries organizationId shareId)
      (joined (tenant entries organizationId)) (fun cursor => listTrash entries organizationId shareId cursor limit) := by
  have folder : (folderRows entries organizationId shareId parentId).Nodup := tenant_nodup.filter _
  have trash : (trashRows entries organizationId shareId).Nodup := tenant_nodup.filter _
  constructor
  · refine complete_of_pages told_folder folder room (fun cur _ entry _ => selects_eq cur entry) (fun after known => ?_)
    cases after with
    | none => rfl
    | some cur =>
      have found := lookup_tenant (folder_tenant (known cur rfl))
      simp only [list,map_some,found,any_some,selects_eq]
  · refine complete_of_pages told_trash trash room (fun cur known entry member => trashedBefore_eq known member) (fun after known => ?_)
    cases after with
    | none => rfl
    | some cur =>
      have found := lookup_tenant (trash_tenant (known cur rfl))
      have same : (trashRows entries organizationId shareId).filter (fun entry => trashedBefore entry cur) =
          (trashRows entries organizationId shareId).filter (fun entry => lexicographic trashColumns cur entry) :=
        filter_congr (fun entry member => trashedBefore_eq (known cur rfl) member)
      simp only [listTrash,map_some,found,any_some,← same]

def threeFiles : Table String FileRow :=
  (((∅ : Table String FileRow).insert "1" ⟨"o","s",none,.file,"b.txt","/b.txt",7,3,none⟩).insert "2"
    ⟨"o","s",none,.file,"a","/a",7,3,none⟩).insert "3" ⟨"o","s",none,.file,"b.txt","/b.txt",7,3,some 5⟩

def plain : Locale := ⟨uuids,fun text => text,fun text => text⟩

theorem listing_complete_by_size : Complete ((sortFragments .size .desc).columns plain)
      ((sortFragments .size .desc).selects plain) (folderRows threeFiles "o" "s" none) (counted (tenant threeFiles "o"))
      (fun cursor => (list plain threeFiles "o" "s" none cursor 1 .size none).toFileEntryPage) :=
  (listing_complete plain threeFiles "o" "s" none .size none 1 (by decide)).1

end Depsis.Files.Listing
