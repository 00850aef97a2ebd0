import Mathlib.Data.List.Nodup

/-! Collecting items group by group into a map that keeps the first item seen
under each key.
-/
namespace Depsis.Foundation.FirstSeen

open List

variable {Item Key : Type*} [DecidableEq Key] (key : Item → Key)

/-- `if (!map.has(key)) map.set(key, item)`, the map kept in insertion order. -/
def add (kept : List Item) (item : Item) : List Item :=
  if kept.any (fun known => key known = key item) then kept else kept ++ [item]

variable {key}

variable {kept : List Item}

private theorem any_key {item : Item} :
    kept.any (fun known => decide (key known = key item)) = true ↔ key item ∈ kept.map key := by
  simp

theorem mem_add {item found : Item} :
    found ∈ add key kept item ↔ found ∈ kept ∨ (found = item ∧ key item ∉ kept.map key) := by
  unfold add
  split
  next known =>
    have present := any_key.mp known
    exact ⟨.inl,fun either => either.elim id (fun new => absurd present new.2)⟩
  next fresh =>
    have absent := any_key.not.mp fresh
    rw [mem_append,mem_singleton]
    exact or_congr_right ⟨fun same => ⟨same,absent⟩,And.left⟩

theorem keys_add {item : Item} {name : Key} :
    name ∈ (add key kept item).map key ↔ name ∈ kept.map key ∨ name = key item := by
  unfold add
  split
  next known =>
    have present := any_key.mp known
    exact ⟨.inl,fun either => either.elim id (fun same => same ▸ present)⟩
  next => simp

theorem nodup_add {item : Item} (distinct : (kept.map key).Nodup) :
    ((add key kept item).map key).Nodup := by
  unfold add
  split
  next => exact distinct
  next fresh =>
    have absent := any_key.not.mp fresh
    rw [map_append]
    refine nodup_append'.mpr ⟨distinct,nodup_singleton _,fun name member same => ?_⟩
    rw [map_singleton,mem_singleton] at same
    exact absent (same ▸ member)

theorem keys_group {group : List Item} {name : Key} :
    name ∈ (group.foldl (add key) kept).map key ↔ name ∈ kept.map key ∨ name ∈ group.map key := by
  induction group generalizing kept with
  | nil => simp
  | cons item rest ih =>
    rw [foldl_cons,ih,keys_add,map_cons,mem_cons,or_assoc]

theorem mem_group {group : List Item} {found : Item} (distinct : (group.map key).Nodup) :
    found ∈ group.foldl (add key) kept ↔ found ∈ kept ∨ (found ∈ group ∧ key found ∉ kept.map key) := by
  induction group generalizing kept with
  | nil => simp
  | cons item rest ih =>
    obtain ⟨apart,distinct⟩ := nodup_cons.mp distinct
    rw [foldl_cons,ih distinct,mem_add,keys_add,mem_cons]
    constructor
    · rintro ((before | ⟨rfl,fresh⟩) | ⟨later,fresh⟩)
      · exact .inl before
      · exact .inr ⟨.inl rfl,fresh⟩
      · exact .inr ⟨.inr later,fun known => fresh (.inl known)⟩
    · rintro (before | ⟨rfl | later,fresh⟩)
      · exact .inl (.inl before)
      · exact .inl (.inr ⟨rfl,fresh⟩)
      · refine .inr ⟨later,fun known => known.elim fresh (fun same => apart ?_)⟩
        exact same ▸ mem_map_of_mem later

theorem nodup_group {group : List Item} (distinct : (kept.map key).Nodup) :
    ((group.foldl (add key) kept).map key).Nodup := by
  induction group generalizing kept with
  | nil => exact distinct
  | cons item rest ih => exact ih (nodup_add distinct)

theorem mem_groups {Group : Type*} {items : Group → List Item} {groups : List Group}
    {found : Item} (distinct : ∀ group ∈ groups, ((items group).map key).Nodup) :
    found ∈ groups.foldl (fun kept group => (items group).foldl (add key) kept) kept ↔
      found ∈ kept ∨ (key found ∉ kept.map key ∧ ∃ front group back, groups = front ++ group::back ∧
        found ∈ items group ∧ ∀ earlier ∈ front, key found ∉ (items earlier).map key) := by
  induction groups generalizing kept with
  | nil => simp
  | cons group rest ih =>
    rw [foldl_cons,ih (fun later member => distinct later (mem_cons_of_mem _ member)),
      mem_group (distinct group mem_cons_self),keys_group]
    constructor
    · rintro ((before | ⟨here,fresh⟩) | ⟨fresh,front,later,back,rfl,member,earlier⟩)
      · exact .inl before
      · exact .inr ⟨fresh,[],group,rest,rfl,here,nofun⟩
      · refine .inr ⟨fun known => fresh (.inl known),group::front,later,back,rfl,member,fun other listed => ?_⟩
        rcases mem_cons.mp listed with rfl | listed
        · exact fun known => fresh (.inr known)
        · exact earlier other listed
    · rintro (before | ⟨fresh,front,later,back,split,member,earlier⟩)
      · exact .inl (.inl before)
      · cases front with
        | nil =>
          cases split
          exact .inl (.inr ⟨member,fresh⟩)
        | cons first front =>
          cases split
          refine .inr ⟨fun known => known.elim fresh (earlier _ mem_cons_self),front,later,back,rfl,member,
            fun other listed => earlier other (mem_cons_of_mem _ listed)⟩

theorem keys_groups {Group : Type*} {items : Group → List Item} {groups : List Group} {name : Key} :
    name ∈ (groups.foldl (fun kept group => (items group).foldl (add key) kept) kept).map key ↔
      name ∈ kept.map key ∨ ∃ group ∈ groups, name ∈ (items group).map key := by
  induction groups generalizing kept with
  | nil => simp
  | cons group rest ih =>
    rw [foldl_cons,ih,keys_group,or_assoc]
    simp only [mem_cons,exists_eq_or_imp]

theorem nodup_groups {Group : Type*} {items : Group → List Item} {groups : List Group}
    (distinct : (kept.map key).Nodup) :
    ((groups.foldl (fun kept group => (items group).foldl (add key) kept) kept).map key).Nodup := by
  induction groups generalizing kept with
  | nil => exact distinct
  | cons group rest ih => exact ih (nodup_group distinct)

end Depsis.Foundation.FirstSeen
