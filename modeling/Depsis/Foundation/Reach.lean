import Mathlib.Data.List.Dedup
import Mathlib.Data.List.Perm.Subperm
import Mathlib.Logic.Relation

/-! A recursive query with a memory: from some rows to the rows next to them, round
by round, without those met before. It comes to an end wherever the rows are finite.
-/
namespace Depsis.Foundation.Reach

open Relation List

variable {Node : Type*} [DecidableEq Node] (next : Node → List Node)

def fresh (seen working : List Node) : List Node :=
  ((working.flatMap next).filter (fun node => node ∉ seen)).dedup

def rounds : Nat → List Node → List Node → List Node
  | 0,seen,_ => seen
  | steps + 1,seen,working =>
    let found := fresh next seen working
    if found = [] then seen else rounds steps (seen ++ found) found

/-- Everything met from `start` on, each row once, in at most `steps` rounds. -/
def reach (steps : Nat) (start : List Node) : List Node := rounds next steps start.dedup start.dedup

def Next (node other : Node) : Prop := other ∈ next node

variable {next} {seen working start nodes : List Node} {node : Node} {steps : Nat}

theorem mem_fresh : node ∈ fresh next seen working ↔ (∃ top ∈ working, node ∈ next top) ∧ node ∉ seen := by
  simp [fresh]

structure Met (next : Node → List Node) (start nodes seen working : List Node) : Prop where
  started : ∀ node ∈ start, node ∈ seen
  reached : ∀ node ∈ seen, ∃ top ∈ start, ReflTransGen (Next next) top node
  distinct : seen.Nodup
  last : ∀ node ∈ working, node ∈ seen
  followed : ∀ node ∈ seen, node ∉ working → ∀ other ∈ next node, other ∈ seen
  inside : ∀ node ∈ seen, node ∈ nodes

namespace Met

theorem begins (listed : ∀ node ∈ start, node ∈ nodes) : Met next start nodes start.dedup start.dedup where
  started _ member := mem_dedup.mpr member
  reached node member := ⟨node,mem_dedup.mp member,.refl⟩
  distinct := nodup_dedup start
  last _ member := member
  followed _ member apart := absurd member apart
  inside node member := listed node (mem_dedup.mp member)

theorem onward (met : Met next start nodes seen working) (closed : ∀ node ∈ nodes, ∀ other ∈ next node, other ∈ nodes) :
    Met next start nodes (seen ++ fresh next seen working) (fresh next seen working) where
  started node member := mem_append_left _ (met.started node member)
  reached := by
    intro node member
    rcases mem_append.mp member with known | found
    · exact met.reached node known
    · obtain ⟨⟨upper,listed,after⟩,_⟩ := mem_fresh.mp found
      obtain ⟨top,first,path⟩ := met.reached upper (met.last upper listed)
      exact ⟨top,first,path.tail after⟩
  distinct := by
    refine nodup_append.mpr ⟨met.distinct,nodup_dedup _,fun node known other found same => ?_⟩
    exact (mem_fresh.mp found).2 (same ▸ known)
  last _ member := mem_append_right _ member
  followed := by
    intro node member apart other after
    rcases mem_append.mp member with known | found
    · by_cases working' : node ∈ working
      · by_cases old : other ∈ seen
        · exact mem_append_left _ old
        · exact mem_append_right _ (mem_fresh.mpr ⟨⟨node,working',after⟩,old⟩)
      · exact mem_append_left _ (met.followed node known working' other after)
    · exact absurd found apart
  inside := by
    intro node member
    rcases mem_append.mp member with known | found
    · exact met.inside node known
    · obtain ⟨⟨upper,listed,after⟩,_⟩ := mem_fresh.mp found
      exact closed upper (met.inside upper (met.last upper listed)) node after

theorem complete (met : Met next start nodes seen working) (still : fresh next seen working = []) {top : Node}
    (first : top ∈ start) (path : ReflTransGen (Next next) top node) : node ∈ seen := by
  induction path with
  | refl => exact met.started top first
  | @tail upper other _ after ih =>
    by_cases listed : upper ∈ working
    · by_contra missing
      have found : other ∈ fresh next seen working := mem_fresh.mpr ⟨⟨upper,listed,after⟩,missing⟩
      rw [still] at found
      cases found
    · exact met.followed upper ih listed other after

end Met

section

variable (closed : ∀ node ∈ nodes, ∀ other ∈ next node, other ∈ nodes)
include closed

private theorem mem_rounds
    (met : Met next start nodes seen working) (enough : nodes.length ≤ steps + seen.length) :
    node ∈ rounds next steps seen working ↔ ∃ top ∈ start, ReflTransGen (Next next) top node := by
  induction steps generalizing seen working with
  | zero =>
    refine ⟨met.reached node,?_⟩
    rintro ⟨top,first,path⟩
    -- as many rows as there are, each once: all of them
    have every : seen.Perm nodes :=
      (subperm_of_subset met.distinct met.inside).perm_of_length_le (by omega)
    apply every.mem_iff.mpr
    induction path with
    | refl => exact met.inside top (met.started top first)
    | tail _ after ih => exact closed _ ih _ after
  | succ steps ih =>
    simp only [rounds]
    split
    next none' =>
      refine ⟨met.reached node,?_⟩
      rintro ⟨top,first,path⟩
      exact met.complete none' first path
    next found =>
      apply ih (met.onward closed)
      have more := length_pos_of_ne_nil found
      rw [length_append]
      omega

theorem mem_reach
    (listed : ∀ node ∈ start, node ∈ nodes) (enough : nodes.length ≤ steps) :
    node ∈ reach next steps start ↔ ∃ top ∈ start, ReflTransGen (Next next) top node :=
  mem_rounds closed (Met.begins listed) (by omega)

end

end Depsis.Foundation.Reach
