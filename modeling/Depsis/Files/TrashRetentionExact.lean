import Depsis.Files.TrashRetention
import Mathlib.Algebra.BigOperators.Group.Finset.Basic
import Mathlib.Algebra.BigOperators.Group.List.Basic

/-! What the runs of the sweep take: rows below expired roots alone, every root that too many
failing ones do not stand before, and what was announced where no expired root hides another.
-/
namespace Depsis.Files.Retention

open Depsis.Foundation Relation List AList Option Bool Machine

variable {entries start : Entries} {ids all nodes gone removed : List String} {id root child : String} {before : Int}
variable {row : Entry} {left : String → List String} {state next final : State} {fails : String → Bool} {days : Nat} {run : Run} {runs : List Run}

theorem mem_kids : child ∈ kids entries id ↔ ∃ row, entries.lookup child = some row ∧ row.parentId = some id := by
  simp [kids]

theorem kids_nodup (entries : Entries) (id : String) : (kids entries id).Nodup :=
  entries.rows_nodup.sublist (filter_sublist.map Prod.fst)

theorem one_parent {first second : String} (left : child ∈ kids entries first) (right : child ∈ kids entries second) :
    first = second := by
  obtain ⟨row,found,parent⟩ := mem_kids.mp left
  obtain ⟨same,again,other⟩ := mem_kids.mp right
  cases found.symm.trans again
  exact Option.some.inj (parent.symm.trans other)

theorem mem_tree (ran : tree entries ids = some all) : id ∈ all ↔ ∃ root ∈ ids, Within entries root id :=
  Levels.mem_levels ran

theorem mem_tree_root (ran : tree entries [root] = some all) : id ∈ all ↔ Within entries root id := by
  simp [mem_tree ran]

theorem within_stored (stored : (entries.lookup root).isSome) (inside : Within entries root id) :
    (entries.lookup id).isSome := by
  rcases ReflTransGen.cases_tail inside with rfl | ⟨last,-,under⟩
  · exact stored
  · obtain ⟨row,found,-⟩ := mem_kids.mp under
    rw [found]
    rfl

theorem tree_ends (forest : Forest entries) (stored : ∀ id ∈ ids, (entries.lookup id).isSome) :
    (tree entries ids).isSome := by
  refine Levels.levels_ends entries.keys (fun top listed node inside => ?_) (fun _ _ node _ => forest node) ?_
  · exact mem_keys.mp (lookup_isSome.mp (within_stored (stored top listed) inside))
  · simp [AList.keys,List.keys,AList.size]

theorem tree_root (forest : Forest entries) (found : entries.lookup root = some row) : ∃ nodes, tree entries [root] = some nodes := by
  refine isSome_iff_exists.mp (tree_ends forest (fun id member => ?_))
  rw [mem_singleton.mp member,found]
  rfl

theorem tree_nodup (forest : Forest entries) (ran : tree entries [root] = some all) : all.Nodup := by
  refine Levels.levels_nodup ran (nodup_singleton root) (kids_nodup entries) (fun _ _ _ => one_parent) ?_
  intro first here second there
  rw [mem_singleton.mp here,mem_singleton.mp there]
  exact forest root

theorem within_either {first second : String} (left : Within entries first id) (right : Within entries second id) :
    Within entries first second ∨ Within entries second first := by
  induction left with
  | refl => exact .inr right
  | @tail last node path under ih =>
    rcases ReflTransGen.cases_tail right with rfl | ⟨other,path',under'⟩
    · exact .inl (path.tail under)
    · cases one_parent under under'
      exact ih path'

theorem sum_tree (weight : String → Nat) (ran : tree entries ids = some all) :
    (all.map weight).sum = (ids.map (fun root => (((tree entries [root]).getD []).map weight).sum)).sum := by
  induction ids generalizing all with
  | nil =>
    rw [tree,Levels.levels] at ran
    cases ran
    rfl
  | cons root rest ih =>
    have split : Levels.levels (kids entries) entries.size ([root] ++ rest) = some all := ran
    obtain ⟨first,second,here,later,perm⟩ := Levels.levels_append split
    rw [(perm.map weight).sum_eq,map_append,sum_append,map_cons,sum_cons,← ih later]
    congr 1
    rw [show tree entries [root] = some first from here]
    rfl

/-! What is left once some rows are gone, each with all that was under it. -/

structure Rest (start entries : Entries) (removed : List String) : Prop where
  lookup : ∀ id, entries.lookup id = if id ∈ removed then none else start.lookup id
  closed : ∀ id ∈ removed, ∀ child ∈ kids start id, child ∈ removed
  distinct : removed.Nodup
  stored : ∀ id ∈ removed, (start.lookup id).isSome

namespace Rest

variable (rest : Rest start entries removed)

include rest

theorem lookup_some (found : entries.lookup id = some row) : id ∉ removed ∧ start.lookup id = some row := by
  rw [rest.lookup] at found
  obtain ⟨kept,found⟩ := of_unless found
  exact ⟨kept,found⟩

theorem lookup_kept (kept : id ∉ removed) : entries.lookup id = start.lookup id := by
  rw [rest.lookup,if_neg kept]

theorem mem_kids_iff : child ∈ kids entries id ↔ child ∉ removed ∧ child ∈ kids start id := by
  rw [mem_kids,mem_kids]
  constructor
  · rintro ⟨row,found,parent⟩
    obtain ⟨kept,found⟩ := rest.lookup_some found
    exact ⟨kept,row,found,parent⟩
  · rintro ⟨kept,row,found,parent⟩
    exact ⟨row,(rest.lookup_kept kept).trans found,parent⟩

theorem within_start (inside : Within entries root id) : Within start root id :=
  ReflTransGen.mono (fun _ _ under => (rest.mem_kids_iff.mp under).2) _ _ inside

theorem removed_within (inside : Within start root id) (away : root ∈ removed) : id ∈ removed := by
  induction inside with
  | refl => exact away
  | tail _ under ih => exact rest.closed _ ih _ under

theorem within_kept (inside : Within start root id) (kept : id ∉ removed) : Within entries root id := by
  induction inside with
  | refl => exact .refl
  | @tail last node path under ih =>
    have above : last ∉ removed := fun away => kept (rest.closed last away node under)
    exact (ih above).tail (rest.mem_kids_iff.mpr ⟨kept,under⟩)

theorem forest (forest : Forest start) : Forest entries := fun id loop =>
  forest id (TransGen.mono (fun _ _ under => (rest.mem_kids_iff.mp under).2) _ _ loop)

theorem expired_iff (found : entries.lookup id = some row) : expired entries before row = expired start before row := by
  obtain ⟨kept,found⟩ := rest.lookup_some found
  rw [expired,expired]
  congr 2
  cases parent : row.parentId with
  | none => rfl
  | some parentId =>
    have above : parentId ∉ removed := fun away => kept (rest.closed parentId away id (mem_kids.mpr ⟨row,found,parent⟩))
    exact rest.lookup_kept above

theorem mem_roots : (id,row) ∈ roots entries before ↔ id ∉ removed ∧ (id,row) ∈ roots start before := by
  simp only [roots,mem_filter,mem_rows]
  constructor
  · rintro ⟨found,late⟩
    obtain ⟨kept,found'⟩ := rest.lookup_some found
    exact ⟨kept,found',(rest.expired_iff found).symm.trans late⟩
  · rintro ⟨kept,found,late⟩
    have found := (rest.lookup_kept kept).trans found
    exact ⟨found,(rest.expired_iff found).trans late⟩

theorem more (distinct : gone.Nodup) (stored : ∀ id ∈ gone, (entries.lookup id).isSome)
    (closed : ∀ id ∈ gone, ∀ child ∈ kids entries id, child ∈ gone) :
    Rest start (entries.retain (fun id _ => !gone.contains id)) (removed ++ gone) := by
  have fresh : ∀ id ∈ gone, id ∉ removed ∧ (start.lookup id).isSome := by
    intro id member
    obtain ⟨row,found⟩ := isSome_iff_exists.mp (stored id member)
    obtain ⟨kept,found⟩ := rest.lookup_some found
    exact ⟨kept,found ▸ rfl⟩
  constructor
  · intro id
    rw [lookup_retain,rest.lookup]
    by_cases away : id ∈ removed
    · simp [away]
    · cases start.lookup id with
      | none => simp [away]
      | some row => simp [away,filter_some]
  · intro id member child under
    rcases mem_append.mp member with earlier | now
    · exact mem_append_left _ (rest.closed id earlier child under)
    · by_cases away : child ∈ removed
      · exact mem_append_left _ away
      · exact mem_append_right _ (closed id now child (rest.mem_kids_iff.mpr ⟨away,under⟩))
  · refine nodup_append.mpr ⟨rest.distinct,distinct,fun id earlier other now same => ?_⟩
    exact (fresh other now).1 (same ▸ earlier)
  · intro id member
    rcases mem_append.mp member with earlier | now
    · exact rest.stored id earlier
    · exact (fresh id now).2

end Rest

theorem rest_first (start : Entries) : Rest start start [] :=
  ⟨fun _ => rfl,fun _ member => absurd member not_mem_nil,.nil,fun _ member => absurd member not_mem_nil⟩

theorem purge_cases {bytes : Nat} (ran : purge fails left state root bytes = some next) :
    (next = { state with failed := state.failed + 1 } ∧
      ∀ row, state.entries.lookup root = some row → row.trashedAt = none) ∨
    ∃ row nodes, state.entries.lookup root = some row ∧ tree state.entries [root] = some nodes ∧
      ((fails root = true ∧ Partly state.entries root nodes (left root) ∧
        next = { remove state (left root) with failed := state.failed + 1 }) ∨
      (fails root = false ∧
        next = { remove state nodes with purged := state.purged ++ [root], bytes := state.bytes + bytes })) := by
  simp only [purge] at ran
  split at ran
  next missing =>
    refine .inl ⟨(Option.some.inj ran).symm,fun row found => ?_⟩
    cases missing.symm.trans found
  next row found =>
    split at ran
    next live =>
      refine .inl ⟨(Option.some.inj ran).symm,fun other again => ?_⟩
      cases found.symm.trans again
      exact isNone_iff_eq_none.mp live
    next =>
      split at ran
      next => cases ran
      next nodes walked =>
        refine .inr ⟨row,nodes,found,walked,?_⟩
        split at ran
        next failing =>
          obtain ⟨partly,ran⟩ := of_when ran
          exact .inl ⟨failing,partly,(Option.some.inj ran).symm⟩
        next succeeds => exact .inr ⟨eq_false_iff.mpr succeeds,(Option.some.inj ran).symm⟩

theorem purge_rest {bytes : Nat} (forest : Forest start) (rest : Rest start state.entries state.removed)
    (ran : purge fails left state root bytes = some next) :
    Rest start next.entries next.removed ∧
      ∃ more, next.removed = state.removed ++ more ∧ ∀ id ∈ more, Within start root id := by
  rcases purge_cases ran with ⟨rfl,-⟩ | ⟨row,nodes,found,walked,⟨-,partly,rfl⟩ | ⟨-,rfl⟩⟩
  · exact ⟨rest,[],(append_nil _).symm,fun _ member => absurd member not_mem_nil⟩
  · obtain ⟨distinct,-,partial'⟩ := partly
    have under : ∀ id ∈ left root, Within state.entries root id := fun id member =>
      (mem_tree_root walked).mp (partial' id member).1
    refine ⟨rest.more distinct (fun id member => within_stored (found ▸ rfl) (under id member)) ?_,
      left root,rfl,fun id member => rest.within_start (under id member)⟩
    exact fun id member => (partial' id member).2
  · have under : ∀ id ∈ nodes, Within state.entries root id := fun id member => (mem_tree_root walked).mp member
    refine ⟨rest.more (tree_nodup (rest.forest forest) walked) (fun id member => within_stored (found ▸ rfl) (under id member)) ?_,
      nodes,rfl,fun id member => rest.within_start (under id member)⟩
    exact fun id member child below' => (mem_tree_root walked).mpr ((under id member).tail below')

theorem purge_takes {bytes : Nat} (rest : Rest start state.entries state.removed) (found : start.lookup root = some row)
    (trashed : row.trashedAt.isSome) (succeeds : fails root = false)
    (ran : purge fails left state root bytes = some next) : root ∈ next.removed := by
  rcases purge_cases ran with ⟨rfl,gone⟩ | ⟨other,nodes,-,walked,⟨failing,-⟩ | ⟨-,rfl⟩⟩
  · by_contra kept
    have live := gone row ((rest.lookup_kept kept).trans found)
    rw [live] at trashed
    cases trashed
  · rw [succeeds] at failing
    cases failing
  · exact mem_append_right _ ((mem_tree_root walked).mpr .refl)

section

variable {listed : List (String × Nat)}

theorem purges_cons {bytes : Nat} (ran : purges fails left state ((root,bytes)::listed) = some final) :
    ∃ next, purge fails left state root bytes = some next ∧ purges fails left next listed = some final :=
  bind_eq_some_iff.mp ran

theorem purges_rest (forest : Forest start) (rest : Rest start state.entries state.removed)
    (ran : purges fails left state listed = some final) :
    Rest start final.entries final.removed ∧
      ∃ more, final.removed = state.removed ++ more ∧ ∀ id ∈ more, ∃ root ∈ listed.map Prod.fst, Within start root id := by
  induction listed generalizing state with
  | nil =>
    cases ran
    exact ⟨rest,[],(append_nil _).symm,fun _ member => absurd member not_mem_nil⟩
  | cons head listed ih =>
    obtain ⟨next,here,later⟩ := purges_cons ran
    obtain ⟨rest,first,taken,under⟩ := purge_rest forest rest here
    obtain ⟨rest,second,taken',under'⟩ := ih rest later
    refine ⟨rest,first ++ second,by rw [taken',taken,append_assoc],fun id member => ?_⟩
    rcases mem_append.mp member with early | late
    · exact ⟨head.1,mem_cons_self,under id early⟩
    · obtain ⟨root,inside,path⟩ := under' id late
      exact ⟨root,mem_cons_of_mem _ inside,path⟩

theorem purges_takes {bytes : Nat} (forest : Forest start) (rest : Rest start state.entries state.removed)
    (found : start.lookup root = some row) (trashed : row.trashedAt.isSome) (succeeds : fails root = false)
    (member : (root,bytes) ∈ listed) (ran : purges fails left state listed = some final) : root ∈ final.removed := by
  induction listed generalizing state with
  | nil => cases member
  | cons head listed ih =>
    obtain ⟨next,here,later⟩ := purges_cons ran
    have kept := (purge_rest forest rest here).1
    rcases mem_cons.mp member with rfl | after
    · obtain ⟨-,more,taken,-⟩ := purges_rest forest kept later
      rw [taken]
      exact mem_append_left _ (purge_takes rest found trashed succeeds here)
    · exact ih kept after later

end

theorem purgeExpired_cases (ran : purgeExpired fails days state run = some next) :
    Batch state.entries (cutoff days run.now) run.batch ∧ purges fails run.gone state
      ((run.batch.take run.handled).map (fun root => (root.1,rootBytes state.entries root.1))) = some next := by
  rw [purgeExpired] at ran
  obtain ⟨answered,ran⟩ := of_when ran
  exact ⟨answered,ran⟩

theorem purgeExpired_rest (forest : Forest start) (rest : Rest start state.entries state.removed)
    (ran : purgeExpired fails days state run = some next) :
    Rest start next.entries next.removed ∧ ∃ more, next.removed = state.removed ++ more ∧
      ∀ id ∈ more, ∃ root ∈ roots start (cutoff days run.now), Within start root.1 id := by
  obtain ⟨answered,ran⟩ := purgeExpired_cases ran
  obtain ⟨kept,more,taken,under⟩ := purges_rest forest rest ran
  refine ⟨kept,more,taken,fun id member => ?_⟩
  obtain ⟨root,inside,path⟩ := under id member
  rw [List.map_map] at inside
  obtain ⟨chosen,listed,rfl⟩ := mem_map.mp inside
  exact ⟨chosen,(rest.mem_roots.mp (answered.2.1 chosen (mem_of_mem_take listed))).2,path⟩

theorem runs_rest (forest : Forest start) (rest : Rest start state.entries state.removed)
    (ran : Machine.run (purgeExpired fails days) state runs = some final) :
    Rest start final.entries final.removed ∧ ∃ more, final.removed = state.removed ++ more ∧
      ∀ id ∈ more, ∃ run ∈ runs, ∃ root ∈ roots start (cutoff days run.now), Within start root.1 id := by
  induction runs generalizing state with
  | nil =>
    cases ran
    exact ⟨rest,[],(append_nil _).symm,fun _ member => absurd member not_mem_nil⟩
  | cons run runs ih =>
    obtain ⟨next,here,later⟩ := run_cons_some _ ran
    obtain ⟨rest,first,taken,under⟩ := purgeExpired_rest forest rest here
    obtain ⟨rest,second,taken',under'⟩ := ih rest later
    refine ⟨rest,first ++ second,by rw [taken',taken,append_assoc],fun id member => ?_⟩
    rcases mem_append.mp member with early | late
    · exact ⟨run,mem_cons_self,under id early⟩
    · obtain ⟨run,inside,root⟩ := under' id late
      exact ⟨run,mem_cons_of_mem _ inside,root⟩

variable {entry : String × Entry}

theorem roots_trashed (member : entry ∈ roots entries before) :
    entries.lookup entry.1 = some entry.2 ∧ entry.2.trashedAt.isSome ∧ entry.2.age < before := by
  obtain ⟨stored,late⟩ := mem_filter.mp member
  obtain ⟨trashedAt,late⟩ := (any_eq_true _ _).mp (and_eq_true_iff.mp late).1
  refine ⟨mem_rows.mp stored,late.1 ▸ rfl,?_⟩
  rw [Entry.age,late.1]
  exact of_decide_eq_true late.2

theorem roots_later {later : Int} (member : entry ∈ roots entries before) (more : before ≤ later) :
    entry ∈ roots entries later := by
  obtain ⟨-,-,old⟩ := roots_trashed member
  obtain ⟨stored,late⟩ := mem_filter.mp member
  obtain ⟨late,top⟩ := and_eq_true_iff.mp late
  obtain ⟨trashedAt,found,-⟩ := (any_eq_true _ _).mp late
  refine mem_filter.mpr ⟨stored,and_eq_true_iff.mpr ⟨?_,top⟩⟩
  rw [Entry.age,found] at old
  rw [found]
  exact decide_eq_true (Int.lt_of_lt_of_le old more)

theorem roots_earlier {later : Int} (member : entry ∈ roots entries later)
    (old : entry.2.age < before) : entry ∈ roots entries before := by
  obtain ⟨stored,late⟩ := mem_filter.mp member
  obtain ⟨late,top⟩ := and_eq_true_iff.mp late
  obtain ⟨trashedAt,found,-⟩ := (any_eq_true _ _).mp late
  refine mem_filter.mpr ⟨stored,and_eq_true_iff.mpr ⟨?_,top⟩⟩
  rw [Entry.age,found] at old
  rw [found]
  exact decide_eq_true old

def blockers (start : Entries) (before : Int) (fails : String → Bool) (root : String × Entry) : Nat :=
  (roots start before).countP (fun other => fails other.1 && other.2.age ≤ root.2.age)

theorem other_chosen (rest : Rest start state.entries state.removed)
    (listed : entry ∈ roots start before) (few : blockers start before fails entry < BATCH)
    (answered : Batch state.entries (cutoff days run.now) run.batch) (late : before ≤ cutoff days run.now)
    (kept : entry.1 ∉ state.removed) (missing : entry ∉ run.batch) : ∃ other ∈ run.batch, fails other.1 = false := by
  by_contra none
  have failing : ∀ other ∈ run.batch, fails other.1 = true := fun other member =>
    not_eq_false _ ▸ fun succeeds => none ⟨other,member,succeeds⟩
  have waits := rest.mem_roots.mpr ⟨kept,roots_later listed late⟩
  obtain ⟨full,older⟩ := (answered.2.2.2.2 entry waits).resolve_left missing
  have young := (roots_trashed listed).2.2
  have inside : run.batch ⊆ (roots start before).filter (fun other => fails other.1 && other.2.age ≤ entry.2.age) := by
    intro other member
    have early := older other member
    have there := (rest.mem_roots.mp (answered.2.1 other member)).2
    refine mem_filter.mpr ⟨roots_earlier there (Int.lt_of_le_of_lt early young),?_⟩
    rw [failing other member]
    exact decide_eq_true early
  have short := (subperm_of_subset answered.1 inside).length_le
  rw [← countP_eq_length_filter] at short
  rw [blockers] at few
  omega

theorem purgeExpired_progress (forest : Forest start) (rest : Rest start state.entries state.removed)
    (listed : entry ∈ roots start before) (succeeds : fails entry.1 = false) (few : blockers start before fails entry < BATCH)
    (late : before ≤ cutoff days run.now) (whole : run.whole = true) (ran : purgeExpired fails days state run = some next) :
    entry.1 ∈ next.removed ∨ state.removed.length < next.removed.length := by
  by_cases away : entry.1 ∈ state.removed
  · obtain ⟨-,more,taken,-⟩ := purgeExpired_rest forest rest ran
    exact .inl (taken ▸ mem_append_left _ away)
  · obtain ⟨answered,ran⟩ := purgeExpired_cases ran
    obtain ⟨chosen,member,fine⟩ : ∃ chosen ∈ run.batch, fails chosen.1 = false := by
      by_cases member : entry ∈ run.batch
      · exact ⟨entry,member,succeeds⟩
      · exact other_chosen rest listed few answered late away member
    obtain ⟨there,started⟩ := rest.mem_roots.mp (answered.2.1 chosen member)
    obtain ⟨found,trashed,-⟩ := roots_trashed started
    have handled : (chosen.1,rootBytes state.entries chosen.1) ∈
        (run.batch.take run.handled).map (fun root => (root.1,rootBytes state.entries root.1)) := by
      rw [take_of_length_le (of_decide_eq_true whole)]
      exact mem_map_of_mem member
    have gone := purges_takes forest rest found trashed fine handled ran
    obtain ⟨-,more,taken,-⟩ := purges_rest forest rest ran
    refine .inr ?_
    rw [taken] at gone
    have new : chosen.1 ∈ more := (mem_append.mp gone).resolve_left there
    rw [taken,length_append]
    have := length_pos_of_mem new
    omega

theorem runs_progress (forest : Forest start) (rest : Rest start state.entries state.removed)
    (listed : entry ∈ roots start before) (succeeds : fails entry.1 = false) (few : blockers start before fails entry < BATCH)
    (late : ∀ run ∈ runs, before ≤ cutoff days run.now) (ran : Machine.run (purgeExpired fails days) state runs = some final) :
    entry.1 ∈ final.removed ∨ state.removed.length + runs.countP Run.whole ≤ final.removed.length := by
  induction runs generalizing state with
  | nil =>
    cases ran
    exact .inr (Nat.le_refl _)
  | cons run runs ih =>
    obtain ⟨next,here,later⟩ := run_cons_some _ ran
    obtain ⟨kept,more,taken,-⟩ := purgeExpired_rest forest rest here
    obtain ⟨-,more',taken',-⟩ := runs_rest forest kept later
    rcases ih kept (fun other member => late other (mem_cons_of_mem _ member)) later with gone | grown
    · exact .inl gone
    · rw [countP_cons]
      split
      next whole =>
        rcases purgeExpired_progress forest rest listed succeeds few (late run mem_cons_self) whole here with gone | grows
        · exact .inl (taken' ▸ mem_append_left _ gone)
        · exact .inr (by omega)
      next =>
        rw [taken,length_append] at grown
        exact .inr (by omega)

theorem root_purged (forest : Forest start)
    (listed : entry ∈ roots start before) (succeeds : fails entry.1 = false) (few : blockers start before fails entry < BATCH)
    (late : ∀ run ∈ runs, before ≤ cutoff days run.now) (enough : start.size < runs.countP Run.whole)
    (ran : Machine.run (purgeExpired fails days) (.first start) runs = some final) : entry.1 ∈ final.removed := by
  refine (runs_progress forest (rest_first start) listed succeeds few late ran).resolve_right (fun grown => ?_)
  obtain ⟨rest,-⟩ := runs_rest forest (rest_first start) ran
  have bound := length_le_size rest.distinct rest.stored
  omega

/-- No expired root hides another, but for one that was trashed earlier and holds no file. -/
def CountedOnce (entries : Entries) (before : Int) : Prop :=
  ∀ inner ∈ roots entries before, ∀ outer ∈ roots entries before, inner ≠ outer → Within entries outer.1 inner.1 →
    inner.2.age < outer.2.age ∧ ∀ id, Within entries inner.1 id → isFile entries id = false

def weighed (entries : Entries) (weight : String → Nat) (root : String) : Nat :=
  (((tree entries [root]).getD []).map weight).sum

def Light (entries : Entries) (weight : String → Nat) : Prop := ∀ id, isFile entries id = false → weight id = 0

theorem light_bytes (entries : Entries) : Light entries (bytesOf entries) := by
  intro id folder
  rw [bytesOf]
  rw [isFile] at folder
  split
  next => rfl
  next row found =>
    rw [found] at folder
    exact if_neg (of_decide_eq_false folder)

structure Tally (start : Entries) (before : Int) (state : State) : Prop where
  rest : Rest start state.entries state.removed
  distinct : state.purged.Nodup
  chosen : ∀ id ∈ state.purged, id ∈ state.removed ∧ ∃ row, (id,row) ∈ roots start before
  owned : ∀ entry ∈ roots start before, entry.1 ∈ state.removed → entry.1 ∈ state.purged
  covered : ∀ id ∈ state.removed, ∃ root ∈ state.purged, Within start root id
  totals : ∀ weight, Light start weight → (state.removed.map weight).sum = (state.purged.map (weighed start weight)).sum
  recorded : state.bytes = (state.purged.map (rootBytes start)).sum

theorem tally_first (start : Entries) (before : Int) : Tally start before (.first start) where
  rest := rest_first start
  distinct := .nil
  chosen := fun _ member => absurd member not_mem_nil
  owned := fun _ _ member => absurd member not_mem_nil
  covered := fun _ member => absurd member not_mem_nil
  totals := fun _ _ => rfl
  recorded := rfl

private theorem sum_less {less more : List String} {weight : String → Nat} (lessNodup : less.Nodup) (moreNodup : more.Nodup)
    (inside : ∀ id ∈ less, id ∈ more) (nothing : ∀ id ∈ more, id ∉ less → weight id = 0) :
    (less.map weight).sum = (more.map weight).sum := by
  rw [← sum_toFinset weight lessNodup,← sum_toFinset weight moreNodup]
  refine Finset.sum_subset (fun id member => ?_) (fun id member absent => ?_)
  · exact mem_toFinset.mpr (inside id (mem_toFinset.mp member))
  · exact nothing id (mem_toFinset.mp member) (fun there => absent (mem_toFinset.mpr there))

namespace Tally

variable {entry : String × Entry} {weight : String → Nat} (tally : Tally start before state)

include tally

theorem gone_light (once : CountedOnce start before) (light : Light start weight) (listed : entry ∈ roots start before)
    (kept : entry.1 ∉ state.removed) (inside : Within start entry.1 id) (away : id ∈ state.removed) : weight id = 0 := by
  obtain ⟨root,purged,path⟩ := tally.covered id away
  obtain ⟨there,row,also⟩ := tally.chosen root purged
  rcases within_either inside path with inner | outer
  · have different : (root,row) ≠ entry := fun same => kept (same ▸ there)
    exact light id ((once (root,row) also entry listed different inner).2 id path)
  · exact absurd (tally.rest.removed_within outer there) kept

theorem weighed_now (forest : Forest start) (once : CountedOnce start before) (light : Light start weight)
    (listed : entry ∈ roots start before) (kept : entry.1 ∉ state.removed) :
    weighed state.entries weight entry.1 = weighed start weight entry.1 := by
  have found := (roots_trashed listed).1
  obtain ⟨all,walked⟩ := tree_root forest found
  have now : state.entries.lookup entry.1 = some entry.2 := (tally.rest.lookup_kept kept).trans found
  obtain ⟨nodes,walked'⟩ := tree_root (tally.rest.forest forest) now
  rw [weighed,weighed,walked,walked']
  refine sum_less (tree_nodup (tally.rest.forest forest) walked') (tree_nodup forest walked) (fun id member => ?_) ?_
  · exact (mem_tree_root walked).mpr (tally.rest.within_start ((mem_tree_root walked').mp member))
  · intro id member absent
    have path := (mem_tree_root walked).mp member
    refine tally.gone_light once light listed kept path (Decidable.not_not.mp fun there => absent ?_)
    exact (mem_tree_root walked').mpr (tally.rest.within_kept path there)

theorem rootBytes_now (forest : Forest start) (once : CountedOnce start before) (listed : entry ∈ roots start before)
    (kept : entry.1 ∉ state.removed) : rootBytes state.entries entry.1 = rootBytes start entry.1 := by
  refine Eq.trans ?_ (tally.weighed_now forest once (light_bytes start) listed kept)
  rw [rootBytes,weighed]
  congr 1
  refine map_congr_left (fun id member => ?_)
  cases walked : tree state.entries [entry.1] with
  | none =>
    rw [walked] at member
    exact absurd member not_mem_nil
  | some nodes =>
    rw [walked] at member
    have found : state.entries.lookup entry.1 = some entry.2 := (tally.rest.lookup_kept kept).trans (roots_trashed listed).1
    obtain ⟨row,stored⟩ := isSome_iff_exists.mp (within_stored (found ▸ rfl) ((mem_tree_root walked).mp member))
    rw [bytesOf,bytesOf,stored,(tally.rest.lookup_some stored).2]

end Tally

theorem purge_tally (forest : Forest start) (once : CountedOnce start before)
    (tally : Tally start before state) (listed : entry ∈ roots start before) (kept : entry.1 ∉ state.removed)
    (ready : ∀ inner ∈ roots start before, inner.2.age < entry.2.age → inner.1 ∈ state.removed)
    (ran : purge (fun _ => false) left state entry.1 (rootBytes start entry.1) = some next) : Tally start before next := by
  obtain ⟨rest,-⟩ := purge_rest forest tally.rest ran
  obtain ⟨found,trashed,-⟩ := roots_trashed listed
  rcases purge_cases ran with ⟨-,gone⟩ | ⟨row,nodes,-,walked,⟨failing,-⟩ | ⟨-,rfl⟩⟩
  · rw [gone entry.2 ((tally.rest.lookup_kept kept).trans found)] at trashed
    cases trashed
  · cases failing
  · have under : ∀ id ∈ nodes, Within start entry.1 id := fun id member =>
      tally.rest.within_start ((mem_tree_root walked).mp member)
    have new : entry.1 ∉ state.purged := fun member => kept (tally.chosen entry.1 member).1
    constructor
    case rest => exact rest
    case distinct => exact nodup_append_comm.mp (nodup_cons.mpr ⟨new,tally.distinct⟩)
    case chosen =>
      intro id member
      rcases mem_append.mp member with earlier | now
      · obtain ⟨there,row⟩ := tally.chosen id earlier
        exact ⟨mem_append_left _ there,row⟩
      · cases mem_singleton.mp now
        exact ⟨mem_append_right _ ((mem_tree_root walked).mpr .refl),entry.2,listed⟩
    case owned =>
      intro other also away
      have earlier : other.1 ∈ state.removed → other.1 ∈ state.purged ++ [entry.1] := fun there =>
        mem_append_left _ (tally.owned other also there)
      rcases mem_append.mp away with there | now
      · exact earlier there
      · by_cases same : other = entry
        · exact mem_append_right _ (mem_singleton.mpr (congrArg Prod.fst same))
        · exact earlier (ready other also (once other also entry listed same (under other.1 now)).1)
    case covered =>
      intro id away
      rcases mem_append.mp away with there | now
      · obtain ⟨root,purged,path⟩ := tally.covered id there
        exact ⟨root,mem_append_left _ purged,path⟩
      · exact ⟨entry.1,mem_append_right _ mem_cons_self,under id now⟩
    case totals =>
      intro weight light
      have weighs := tally.weighed_now forest once light listed kept
      rw [weighed,walked] at weighs
      have weighs : (nodes.map weight).sum = weighed start weight entry.1 := weighs
      change ((state.removed ++ nodes).map weight).sum = ((state.purged ++ [entry.1]).map (weighed start weight)).sum
      rw [map_append,sum_append,map_append,sum_append,tally.totals weight light,weighs]
      rfl
    case recorded =>
      change state.bytes + rootBytes start entry.1 = ((state.purged ++ [entry.1]).map (rootBytes start)).sum
      rw [map_append,sum_append,tally.recorded]
      rfl

theorem purges_tally {listed : List (String × Entry)} (bytes : String → Nat) (forest : Forest start) (once : CountedOnce start before)
    (tally : Tally start before state) (chosen : ∀ entry ∈ listed, entry ∈ roots start before ∧ entry.1 ∉ state.removed)
    (distinct : listed.Nodup) (sorted : listed.Pairwise (fun first second => first.2.age ≤ second.2.age))
    (ready : ∀ entry ∈ listed, ∀ inner ∈ roots start before, inner.2.age < entry.2.age → inner.1 ∈ state.removed ∨ inner ∈ listed)
    (counted : ∀ entry ∈ listed, bytes entry.1 = rootBytes start entry.1)
    (ran : purges (fun _ => false) left state (listed.map (fun root => (root.1,bytes root.1))) = some final) :
    Tally start before final := by
  induction listed generalizing state with
  | nil =>
    cases ran
    exact tally
  | cons entry listed ih =>
    obtain ⟨next,here,later⟩ := purges_cons ran
    obtain ⟨apart,distinct⟩ := nodup_cons.mp distinct
    obtain ⟨older,sorted⟩ := pairwise_cons.mp sorted
    obtain ⟨inside,kept⟩ := chosen entry mem_cons_self
    rw [counted entry mem_cons_self] at here
    have first : ∀ inner ∈ roots start before, inner.2.age < entry.2.age → inner.1 ∈ state.removed := by
      intro inner also young
      refine (ready entry mem_cons_self inner also young).resolve_right (fun member => ?_)
      rcases mem_cons.mp member with rfl | after
      · exact Int.lt_irrefl _ young
      · exact Int.not_lt.mpr (older inner after) young
    have taken := purge_takes tally.rest (roots_trashed inside).1 (roots_trashed inside).2.1 rfl here
    obtain ⟨-,more,grown,under⟩ := purge_rest forest tally.rest here
    refine ih (purge_tally forest once tally inside kept first here) (fun other member => ?_) distinct sorted ?_
      (fun other member => counted other (mem_cons_of_mem _ member)) later
    · obtain ⟨also,there⟩ := chosen other (mem_cons_of_mem _ member)
      refine ⟨also,fun away => ?_⟩
      rw [grown] at away
      have path := under other.1 ((mem_append.mp away).resolve_left there)
      have young := (once other also entry inside (fun same => apart (same ▸ member)) path).1
      exact Int.not_lt.mpr (older other member) young
    · intro other member inner also young
      rcases ready other (mem_cons_of_mem _ member) inner also young with away | waits
      · exact .inl (grown ▸ mem_append_left _ away)
      · rcases mem_cons.mp waits with rfl | after
        · exact .inl taken
        · exact .inr after

theorem purgeExpired_tally (forest : Forest start) (once : CountedOnce start before) (tally : Tally start before state)
    (same : roots start (cutoff days run.now) = roots start before)
    (ran : purgeExpired (fun _ => false) days state run = some next) : Tally start before next := by
  obtain ⟨⟨distinct,chosen,sorted,-,whole⟩,ran⟩ := purgeExpired_cases ran
  have started : ∀ entry ∈ run.batch, entry ∈ roots start before ∧ entry.1 ∉ state.removed := by
    intro entry member
    obtain ⟨kept,listed⟩ := tally.rest.mem_roots.mp (chosen entry member)
    exact ⟨same ▸ listed,kept⟩
  have front := take_sublist run.handled run.batch
  refine purges_tally (rootBytes state.entries) forest once tally (fun entry member => started entry (front.subset member))
    (distinct.sublist front) (sorted.sublist front) ?_ ?_ ran
  · intro entry member inner also young
    by_cases away : inner.1 ∈ state.removed
    · exact .inl away
    · have waits : inner ∈ roots state.entries (cutoff days run.now) := tally.rest.mem_roots.mpr ⟨away,same ▸ also⟩
      have before' : inner ∈ run.batch :=
        (whole inner waits).resolve_right (fun late => Int.not_lt.mpr (late.2 entry (front.subset member)) young)
      -- It stands before the other one in the batch, so that it is not cut off.
      refine .inr ?_
      rw [← take_append_drop run.handled run.batch] at before' sorted
      refine (mem_append.mp before').resolve_right (fun cut => ?_)
      exact Int.not_lt.mpr ((pairwise_append.mp sorted).2.2 entry member inner cut) young
  · intro entry member
    obtain ⟨listed,kept⟩ := started entry (front.subset member)
    exact tally.rootBytes_now forest once listed kept

theorem runs_tally (forest : Forest start) (once : CountedOnce start before) (tally : Tally start before state)
    (same : ∀ run ∈ runs, roots start (cutoff days run.now) = roots start before)
    (ran : Machine.run (purgeExpired (fun _ => false) days) state runs = some final) : Tally start before final := by
  induction runs generalizing state with
  | nil =>
    cases ran
    exact tally
  | cons run runs ih =>
    obtain ⟨next,here,later⟩ := run_cons_some _ ran
    have kept := purgeExpired_tally forest once tally (same run mem_cons_self) here
    exact ih kept (fun other member => same other (mem_cons_of_mem _ member)) later

theorem purged_perm (tally : Tally start before final) (drained : roots final.entries before = []) :
    final.purged.Perm ((roots start before).map Prod.fst) := by
  refine (perm_ext_iff_of_nodup tally.distinct ?_).mpr (fun id => ⟨fun member => ?_,fun member => ?_⟩)
  · exact start.rows_nodup.sublist (filter_sublist.map Prod.fst)
  · obtain ⟨-,row,listed⟩ := tally.chosen id member
    exact mem_map_of_mem listed
  · obtain ⟨entry,listed,rfl⟩ := mem_map.mp member
    refine tally.owned entry listed (Decidable.not_not.mp fun kept => ?_)
    have left := tally.rest.mem_roots.mpr ⟨kept,listed⟩
    rw [drained] at left
    cases left

private theorem countP_eq_sum (test : String → Bool) (ids : List String) :
    ids.countP test = (ids.map (fun id => if test id then 1 else 0)).sum := by
  induction ids with
  | nil => rfl
  | cons id ids ih => rw [countP_cons,ih,map_cons,sum_cons,Nat.add_comm]

theorem announced {now : Int} (forest : Forest start) (once : CountedOnce start (cutoff days now))
    (same : ∀ run ∈ runs, roots start (cutoff days run.now) = roots start (cutoff days now))
    (drained : roots final.entries (cutoff days now) = [])
    (ran : Machine.run (purgeExpired (fun _ => false) days) (.first start) runs = some final) :
    ∃ found, impact start now (some days) = some found ∧ found.entries = final.purged.length ∧
      found.files = final.removed.countP (isFile start) ∧
      found.bytes = (final.removed.map (bytesOf start)).sum ∧ found.bytes = final.bytes := by
  have tally := runs_tally forest once (tally_first start _) same ran
  have perm := purged_perm tally drained
  obtain ⟨all,walked⟩ : ∃ all, tree start ((roots start (cutoff days now)).map Prod.fst) = some all := by
    refine isSome_iff_exists.mp (tree_ends forest (fun id member => ?_))
    obtain ⟨entry,listed,rfl⟩ := mem_map.mp member
    rw [(roots_trashed listed).1]
    rfl
  have weighs : ∀ weight, Light start weight → (all.map weight).sum = (final.removed.map weight).sum := by
    intro weight light
    calc (all.map weight).sum
        = (((roots start (cutoff days now)).map Prod.fst).map (weighed start weight)).sum := sum_tree weight walked
      _ = (final.purged.map (weighed start weight)).sum := (perm.map _).sum_eq.symm
      _ = (final.removed.map weight).sum := (tally.totals weight light).symm
  refine ⟨_,by rw [impact,walked,map_some],?_,?_,weighs _ (light_bytes start),?_⟩
  · rw [perm.length_eq,length_map]
  · rw [countP_eq_sum,countP_eq_sum]
    exact weighs _ (fun id folder => by rw [folder]; rfl)
  · rw [tally.recorded]
    exact (weighs _ (light_bytes start)).trans (tally.totals _ (light_bytes start))

/-- What runs take lies under expired roots. Every root whose purge does not fail is taken, where fewer
failing ones than a batch holds are as old. What was announced is what is purged, where no expired root
hides a file or a later root. -/
theorem retention_exact (forest : Forest start) (ran : Machine.run (purgeExpired fails days) (.first start) runs = some final) :
    (∀ id ∈ final.removed, ∃ run ∈ runs, ∃ root ∈ roots start (cutoff days run.now), Within start root.1 id) ∧
    (∀ before, ∀ root ∈ roots start before, fails root.1 = false → blockers start before fails root < BATCH →
      (∀ run ∈ runs, before ≤ cutoff days run.now) → start.size < runs.countP Run.whole → root.1 ∈ final.removed) ∧
    ∀ now, (∀ root, fails root = false) → (∀ run ∈ runs, roots start (cutoff days run.now) = roots start (cutoff days now)) →
      roots final.entries (cutoff days now) = [] → CountedOnce start (cutoff days now) →
      ∃ found, impact start now (some days) = some found ∧ found.entries = final.purged.length ∧
        found.files = final.removed.countP (isFile start) ∧
        found.bytes = (final.removed.map (bytesOf start)).sum ∧ found.bytes = final.bytes := by
  refine ⟨?_,?_,?_⟩
  · obtain ⟨-,more,taken,under⟩ := runs_rest forest (rest_first start) ran
    intro id member
    rw [taken] at member
    exact under id member
  · intro before root listed succeeds few late enough
    exact root_purged forest listed succeeds few late enough ran
  · intro now fine same drained once
    obtain rfl : fails = fun _ => false := funext fine
    exact announced forest once same drained ran

theorem forest_of_depth (depth : String → Nat)
    (deeper : ∀ entry ∈ entries.rows, entry.2.parentId.all (fun parentId => depth parentId < depth entry.1)) : Forest entries := by
  have under : ∀ top id, TransGen (Levels.RightBelow (kids entries)) top id → depth top < depth id := by
    intro top id path
    have one : ∀ top id, Levels.RightBelow (kids entries) top id → depth top < depth id := by
      intro top id child
      obtain ⟨row,found,parent⟩ := mem_kids.mp child
      have sunk := deeper (id,row) (mem_rows.mpr found)
      rw [parent] at sunk
      exact of_decide_eq_true sunk
    induction path with
    | single child => exact one _ _ child
    | tail _ child ih => exact Nat.lt_trans ih (one _ _ child)
  exact fun id loop => Nat.lt_irrefl _ (under id id loop)

def trashedFolder (trashedAt : Int) : Entry := ⟨"s",none,"plans",.folder,0,some trashedAt⟩

def note (trashedAt : Option Int) (parentId : Option String) : Entry := ⟨"s",parentId,"note",.file,5,trashedAt⟩

def bin : Entries :=
  ((AList.singleton "plans" (trashedFolder 1)).insert "inside" (note none (some "plans"))).insert "note" (note (some 2) none)

def both : Run := ⟨DAY+10,[("plans",trashedFolder 1),("note",note (some 2) none)],2,fun _ => []⟩

def nothing : Run := ⟨DAY+10,[],0,fun _ => []⟩

private theorem bin_forest : Forest bin := forest_of_depth (fun id => if id = "inside" then 1 else 0) (by decide)

private theorem bin_once : CountedOnce bin (cutoff 1 (DAY+10)) := by
  have tops : ∀ entry ∈ roots bin (cutoff 1 (DAY+10)), entry.2.parentId = none := by decide
  intro inner listed outer also different path
  rcases ReflTransGen.cases_tail path with same | ⟨last,-,child⟩
  · obtain ⟨found,-⟩ := roots_trashed listed
    obtain ⟨other,-⟩ := roots_trashed also
    exact absurd (Prod.ext same (Option.some.inj (found.symm.trans (same ▸ other)))) different
  · obtain ⟨row,found,parent⟩ := mem_kids.mp child
    obtain ⟨stored,-⟩ := roots_trashed listed
    cases found.symm.trans stored
    rw [tops inner listed] at parent
    cases parent

theorem retention_exact_bin : ∃ final, Machine.run (purgeExpired (fun _ => false) 1) (.first bin) [both,nothing,nothing,nothing] =
    some final ∧ "note" ∈ final.removed ∧
      ∃ found, impact bin (DAY+10) (some 1) = some found ∧ found.entries = final.purged.length ∧ found.bytes = final.bytes := by
  have runs : (Machine.run (purgeExpired (fun _ => false) 1) (.first bin) [both,nothing,nothing,nothing]).any
      (fun final => decide (roots final.entries (cutoff 1 (DAY+10)) = [])) = true := by decide +kernel
  obtain ⟨final,ran,drained⟩ := (any_eq_true _ _).mp runs
  obtain ⟨-,taken,announced⟩ := retention_exact bin_forest ran
  obtain ⟨found,counted,entries,-,-,bytes⟩ :=
    announced (DAY+10) (fun _ => rfl) (by decide) (of_decide_eq_true drained) bin_once
  exact ⟨final,ran,taken (cutoff 1 (DAY+10)) ("note",note (some 2) none) (by decide) rfl (by decide) (by decide) (by decide),
    found,counted,entries,bytes⟩

/-! A note that was trashed before the folder around the folder that holds it. -/

def nested : Entries :=
  ((AList.singleton "plans" (trashedFolder 2)).insert "drafts" ⟨"s",some "plans","drafts",.folder,0,none⟩).insert "note"
    (note (some 1) (some "drafts"))

private theorem nested_forest : Forest nested :=
  forest_of_depth (fun id => if id = "note" then 2 else if id = "drafts" then 1 else 0) (by decide)

theorem retention_miscounted : ¬∀ (days : Nat) (start : Entries) (runs : List Run) (final : State) (now : Int), Forest start →
    Machine.run (purgeExpired (fun _ => false) days) (.first start) runs = some final →
      (∀ run ∈ runs, roots start (cutoff days run.now) = roots start (cutoff days now)) → roots final.entries (cutoff days now) = [] →
        ∃ found, impact start now (some days) = some found ∧ found.entries = final.purged.length ∧
          found.files = final.removed.countP (isFile start) ∧ found.bytes = (final.removed.map (bytesOf start)).sum := by
  intro claimed
  have runs : (Machine.run (purgeExpired (fun _ => false) 1) (.first nested)
      [⟨DAY+10,[("note",note (some 1) (some "drafts")),("plans",trashedFolder 2)],2,fun _ => []⟩]).any
      (fun final => decide (roots final.entries (cutoff 1 (DAY+10)) = [] ∧ final.removed.countP (isFile nested) = 1)) = true := by decide +kernel
  obtain ⟨final,ran,drained⟩ := (any_eq_true _ _).mp runs
  obtain ⟨drained,one⟩ := of_decide_eq_true drained
  obtain ⟨found,counted,-,files,-⟩ := claimed 1 nested _ final (DAY+10) nested_forest ran (by decide) drained
  have two : impact nested (DAY+10) (some 1) = some ⟨2,2,10,some 1⟩ := by decide +kernel
  cases two.symm.trans counted
  rw [one] at files
  cases files

/-! As many failing roots as a batch holds, and one that is younger. -/

def name (count : Nat) : String := String.ofList (List.replicate count 'a')

private theorem name_injective {first second : Nat} (same : name first = name second) : first = second := by
  have lists := congrArg (fun text : String => text.toList.length) same
  simpa [name] using lists

private theorem crowd_nodup (count : Nat) :
    ((List.range count).map (fun (index : Nat) => (⟨name index,note (some index) none⟩ : Sigma fun _ : String => Entry))).NodupKeys := by
  rw [List.NodupKeys,List.keys,List.map_map]
  exact List.nodup_range.map (fun _ _ same => name_injective same)

def crowd (count : Nat) : Entries := ⟨_,crowd_nodup count⟩

private theorem crowd_rows (count : Nat) :
    (crowd count).rows = (List.range count).map (fun (index : Nat) => (name index,note (some index) none)) := by
  simp [crowd,AList.rows,List.map_map,Function.comp_def]

section

variable {count : Nat}

private theorem crowd_lookup {index : Nat} (small : index < count) :
    (crowd count).lookup (name index) = some (note (some index) none) := by
  rw [← mem_rows,crowd_rows]
  exact mem_map.mpr ⟨index,mem_range.mpr small,rfl⟩

private theorem crowd_forest : Forest (crowd count) := by
  refine forest_of_depth (fun _ => 0) (fun entry stored => ?_)
  rw [crowd_rows] at stored
  obtain ⟨index,-,rfl⟩ := mem_map.mp stored
  rfl

private theorem crowd_roots (fewer : (count : Int) ≤ before) : roots (crowd count) before = (crowd count).rows := by
  refine filter_eq_self.mpr (fun entry stored => ?_)
  rw [crowd_rows] at stored
  obtain ⟨index,inside,rfl⟩ := mem_map.mp stored
  have inside := mem_range.mp inside
  have late : (index : Int) < before := by omega
  simp [expired,note,late]

def failing (count : Nat) : List (String × Entry) :=
  (List.range count).map (fun (index : Nat) => (name index,note (some index) none))

private theorem failing_batch (full : count = BATCH) (fewer : ((count + 1 : Nat) : Int) ≤ before) :
    Batch (crowd (count+1)) before (failing count) := by
  rw [Batch,crowd_roots fewer,crowd_rows]
  refine ⟨?_,?_,?_,?_,?_⟩
  · exact nodup_range.map (fun _ _ same => name_injective (congrArg Prod.fst same))
  · intro root member
    obtain ⟨index,inside,rfl⟩ := mem_map.mp member
    have inside := mem_range.mp inside
    exact mem_map.mpr ⟨index,mem_range.mpr (by omega),rfl⟩
  · refine pairwise_map.mpr (pairwise_lt_range.imp (fun younger => ?_))
    simp only [Entry.age,note,getD_some]
    omega
  · rw [failing,length_map,length_range,full]
  · intro root member
    obtain ⟨index,inside,rfl⟩ := mem_map.mp member
    by_cases small : index < count
    · exact .inl (mem_map.mpr ⟨index,mem_range.mpr small,rfl⟩)
    · refine .inr ⟨by rw [failing,length_map,length_range,full],fun other listed => ?_⟩
      obtain ⟨older,inside,rfl⟩ := mem_map.mp listed
      have inside := mem_range.mp inside
      simp only [Entry.age,note,getD_some]
      omega

private theorem remove_nothing (state : State) : remove state [] = state := by
  have kept : state.entries.retain (fun id _ => !([] : List String).contains id) = state.entries :=
    AList.ext (filter_eq_self.mpr (fun _ _ => rfl))
  rw [remove,kept,append_nil]

private theorem purges_fail {listed : List (String × Nat)} (forest : Forest state.entries) (stuck : ∀ root ∈ listed,
    fails root.1 = true ∧ ∃ row, state.entries.lookup root.1 = some row ∧ row.trashedAt.isSome) :
    purges fails (fun _ => []) state listed = some { state with failed := state.failed + listed.length } := by
  induction listed generalizing state with
  | nil => rfl
  | cons root listed ih =>
    obtain ⟨failing,row,found,trashed⟩ := stuck root mem_cons_self
    obtain ⟨nodes,walked⟩ := tree_root forest found
    have here : purge fails (fun _ => []) state root.1 root.2 = some { state with failed := state.failed + 1 } := by
      have live : row.trashedAt.isNone ≠ true := by
        obtain ⟨trashedAt,same⟩ := isSome_iff_exists.mp trashed
        rw [same]
        exact false_ne_true
      have nothing : Partly state.entries root.1 nodes [] :=
        ⟨.nil,not_mem_nil,fun _ member => absurd member not_mem_nil⟩
      simp only [purge,found]
      rw [if_neg live,walked]
      change (if fails root.1 = true then _ else _) = _
      rw [if_pos failing,if_pos nothing,remove_nothing]
    have later := @ih { state with failed := state.failed + 1 } forest
      (fun other member => stuck other (mem_cons_of_mem _ member))
    rw [purges,here,bind_some,later,length_cons]
    simp only [Nat.add_assoc,Nat.add_comm 1]

private theorem crowd_run (full : count = BATCH) {now : Int} (fewer : ((count + 1 : Nat) : Int) ≤ cutoff 0 now)
    (unchanged : state.entries = crowd (count+1)) :
    purgeExpired (fun id => id ≠ name count) 0 state ⟨now,failing count,count,fun _ => []⟩ =
      some { state with failed := state.failed + count } := by
  have batch : (failing count).length = count := by rw [failing,length_map,length_range]
  have stuck : purges (fun id => id ≠ name count) (fun _ => []) state
      ((failing count).map (fun root => (root.1,rootBytes state.entries root.1))) = some { state with failed := state.failed + count } := by
    rw [purges_fail (unchanged ▸ crowd_forest) (fun root member => ?_),length_map,batch]
    obtain ⟨entry,listed,rfl⟩ := mem_map.mp member
    obtain ⟨index,inside,rfl⟩ := mem_map.mp listed
    have small := mem_range.mp inside
    refine ⟨decide_eq_true (fun same => ?_),_,unchanged ▸ crowd_lookup (Nat.lt_succ_of_lt small),rfl⟩
    exact Nat.ne_of_lt small (name_injective same)
  rw [purgeExpired,if_pos (by rw [unchanged]; exact failing_batch full fewer),take_of_length_le (Nat.le_of_eq batch),stuck]

end

theorem retention_blocked : ¬∀ (fails : String → Bool) (days : Nat) (start : Entries) (before : Int) (root : String × Entry),
    Forest start → root ∈ roots start before → fails root.1 = false → ∃ enough, ∀ runs final,
      Machine.run (purgeExpired fails days) (.first start) runs = some final → (∀ run ∈ runs, before ≤ cutoff days run.now) →
        enough ≤ runs.countP Run.whole → root.1 ∈ final.removed := by
  intro claimed
  obtain ⟨count,full⟩ : ∃ count, count = BATCH := ⟨BATCH,rfl⟩
  obtain ⟨now,soon⟩ : ∃ now, cutoff 0 now = ((count + 1 : Nat) : Int) := ⟨((count + 1 : Nat) : Int),by simp [cutoff]⟩
  have listed : (name count,note (some count) none) ∈ roots (crowd (count+1)) (cutoff 0 now) := by
    rw [crowd_roots (Int.le_of_eq soon.symm),mem_rows]
    exact crowd_lookup (Nat.lt_succ_self count)
  obtain ⟨enough,taken⟩ := claimed (fun id => id ≠ name count) 0 (crowd (count+1)) _ _ crowd_forest listed (by simp)
  have sweeps (times : Nat) (state : State) (unchanged : state.entries = crowd (count+1)) (full' : state.removed = []) :
      ∃ final, Machine.run (purgeExpired (fun id => id ≠ name count) 0) state
        (List.replicate times ⟨now,failing count,count,fun _ => []⟩) = some final ∧ final.removed = [] := by
    induction times generalizing state with
    | zero => exact ⟨state,rfl,full'⟩
    | succ times ih =>
      rw [replicate_succ,run_cons,crowd_run full (Int.le_of_eq soon.symm) unchanged,bind_some]
      exact ih _ unchanged full'
  obtain ⟨final,ran,untouched⟩ := sweeps enough (.first (crowd (count+1))) rfl rfl
  have gone := taken _ final ran (fun run member => Int.le_of_eq (congrArg _ (congrArg Run.now (eq_of_mem_replicate member)).symm))
    (by rw [countP_replicate]; simp [Run.whole,failing])
  rw [untouched] at gone
  exact absurd gone not_mem_nil

/-- Neither is every root taken in the end nor is what is taken always what was announced. -/
theorem retention_differs :
    (¬∀ (fails : String → Bool) (days : Nat) (start : Entries) (before : Int) (root : String × Entry),
      Forest start → root ∈ roots start before → fails root.1 = false → ∃ enough, ∀ runs final,
        Machine.run (purgeExpired fails days) (.first start) runs = some final → (∀ run ∈ runs, before ≤ cutoff days run.now) →
          enough ≤ runs.countP Run.whole → root.1 ∈ final.removed) ∧
    ¬∀ (days : Nat) (start : Entries) (runs : List Run) (final : State) (now : Int), Forest start →
      Machine.run (purgeExpired (fun _ => false) days) (.first start) runs = some final →
        (∀ run ∈ runs, roots start (cutoff days run.now) = roots start (cutoff days now)) → roots final.entries (cutoff days now) = [] →
          ∃ found, impact start now (some days) = some found ∧ found.entries = final.purged.length ∧
            found.files = final.removed.countP (isFile start) ∧ found.bytes = (final.removed.map (bytesOf start)).sum :=
  ⟨retention_blocked,retention_miscounted⟩

end Depsis.Files.Retention
