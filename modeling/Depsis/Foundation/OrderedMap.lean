import Mathlib.Algebra.GroupWithZero.Nat
import Mathlib.Data.List.Nodup
import Mathlib.Algebra.BigOperators.Group.List.Basic

/-! JavaScript's `Map`: an entry for each key, in the order in which the keys were set first. -/
namespace Depsis.Foundation

open List

structure OrderedMap (Key Value : Type*) where
  entries : List (Key × Value)
  distinct : (entries.map Prod.fst).Nodup

namespace OrderedMap

variable {Key Value : Type*}

def empty : OrderedMap Key Value := ⟨[],nodup_nil⟩

def behind (map : OrderedMap Key Value) (entries : List (Key × Value)) (last : entries <:+ map.entries) : OrderedMap Key Value :=
  ⟨entries,(last.map Prod.fst).sublist.nodup map.distinct⟩

def weight (cost : Value → Nat) (entries : List (Key × Value)) : Nat := (entries.map (fun entry => cost entry.2)).sum

variable [DecidableEq Key] {map : OrderedMap Key Value} {key : Key} {value : Value}

def get (map : OrderedMap Key Value) (key : Key) : Option Value :=
  (map.entries.find? (fun entry => entry.1 = key)).map Prod.snd

def delete (map : OrderedMap Key Value) (key : Key) : OrderedMap Key Value :=
  ⟨map.entries.filter (fun entry => entry.1 ≠ key),(filter_sublist.map Prod.fst).nodup map.distinct⟩

def replaced (key : Key) (value : Value) (entry : Key × Value) : Key × Value := if entry.1 = key then (key,value) else entry

theorem replaced_key (key : Key) (value : Value) (entry : Key × Value) : (replaced key value entry).1 = entry.1 := by
  unfold replaced
  split
  next same => exact same.symm
  next => rfl

def set (map : OrderedMap Key Value) (key : Key) (value : Value) : OrderedMap Key Value :=
  if missing : key ∈ map.entries.map Prod.fst then
    ⟨map.entries.map (replaced key value),by
      rw [map_map,show Prod.fst ∘ replaced key value = Prod.fst from funext (replaced_key key value)]
      exact map.distinct⟩
  else
    ⟨map.entries ++ [(key,value)],by
      rw [map_append]
      exact List.Nodup.append map.distinct (nodup_singleton _) (by simpa using missing)⟩

theorem get_some (found : map.get key = some value) : (key,value) ∈ map.entries := by
  obtain ⟨⟨other,kept⟩,first,rfl⟩ := Option.map_eq_some_iff.mp found
  obtain rfl : other = key := by simpa using find?_some first
  exact mem_of_find?_eq_some first

theorem get_none (missing : map.get key = none) : key ∉ map.entries.map Prod.fst := by
  intro member
  obtain ⟨entry,inside,rfl⟩ := mem_map.mp member
  have passes := find?_eq_none.mp (Option.map_eq_none_iff.mp missing) entry inside
  exact passes (decide_eq_true rfl)

theorem mem_set {entry : Key × Value} (member : entry ∈ (map.set key value).entries) :
    entry = (key,value) ∨ entry ∈ map.entries := by
  unfold set at member
  split at member
  next =>
    obtain ⟨old,inside,rfl⟩ := mem_map.mp member
    unfold replaced
    split
    next => exact .inl rfl
    next => exact .inr inside
  next =>
    rcases mem_append.mp member with old | new
    · exact .inr old
    · exact .inl (mem_singleton.mp new)

theorem weight_set (cost : Value → Nat) (missing : key ∉ map.entries.map Prod.fst) :
    weight cost (map.set key value).entries = weight cost map.entries + cost value := by
  unfold set
  rw [dif_neg missing]
  simp [weight]

theorem missing_delete : key ∉ (map.delete key).entries.map Prod.fst := by
  intro member
  obtain ⟨entry,inside,same⟩ := mem_map.mp member
  exact absurd same (by simpa using (mem_filter.mp inside).2)

theorem weight_delete (cost : Value → Nat) (found : map.get key = some value) :
    weight cost (map.delete key).entries + cost value = weight cost map.entries := by
  obtain ⟨entries,distinct⟩ := map
  unfold delete get at *
  dsimp only at *
  induction entries with
  | nil => cases found
  | cons entry rest ih =>
    obtain ⟨other,kept⟩ := entry
    obtain ⟨apart,distinct⟩ := nodup_cons.mp distinct
    by_cases same : other = key
    · subst same
      rw [find?_cons_of_pos (by simp)] at found
      cases found
      have others : rest.filter (fun entry => decide (entry.1 ≠ other)) = rest := by
        refine filter_eq_self.mpr (fun entry inside => decide_eq_true (fun meets => apart ?_))
        exact meets ▸ (mem_map_of_mem inside : entry.1 ∈ rest.map Prod.fst)
      rw [filter_cons_of_neg (by simp),others]
      simp [weight,Nat.add_comm]
    · rw [find?_cons_of_neg (by simpa using same)] at found
      rw [filter_cons_of_pos (by simpa using same)]
      have tail := ih distinct found
      simp only [weight,map_cons,sum_cons] at tail ⊢
      omega

end OrderedMap

end Depsis.Foundation
