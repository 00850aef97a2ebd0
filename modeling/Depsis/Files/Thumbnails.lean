import Depsis.Files.ExifThumbnail
import Depsis.Foundation.Decimal
import Depsis.Foundation.Machine
import Depsis.Foundation.OrderedMap
import Depsis.Foundation.Table

/-! The thumbnails kept in memory, and the calls that fill the cache. A call runs without a
break from one answer of the agent to the next, and calls go on side by side.
-/
namespace Depsis.Files.Thumbnails

open Depsis.Foundation ExifThumbnail List Machine

def HEAD_BYTES : Nat := 128 * 1024
def CACHE_BYTES : Nat := 32 * 1024 * 1024
def NEGATIVE_ENTRY_BYTES : Nat := 256

structure Version where
  entryId : List Char
  sizeBytes : Nat
  updatedAt : Int

def Version.key (row : Version) : List Char :=
  row.entryId ++ ':' :: (Decimal.render row.sizeBytes ++ ':' :: Decimal.render row.updatedAt)

/-- `hit`; none where the file carries no thumbnail. -/
abbrev Cached := Option EmbeddedThumbnail

def costOf : Cached → Nat
  | none => NEGATIVE_ENTRY_BYTES
  | some thumbnail => thumbnail.bytes.length

inductive Call where
  | opening (row : Version)
  | reading (row : Version) (fresh : Bool)

structure State where
  cache : OrderedMap (List Char) Cached
  bytes : Int
  calls : Table Nat Call
  /-- What has happened: the answers given from the cache, those put into it, and the heads read. -/
  answered : List (Version × Cached)
  remembered : List (Version × Cached)
  heads : List (Version × List UInt8)

inductive Event where
  | asks (call : Nat) (row : Version) (crowded : Bool)
  | opens (call : Nat) (size : Option Nat)
  | reads (call : Nat) (head : Option (List UInt8))

def State.first : State := ⟨.empty,0,∅,[],[],[]⟩

def evict : Int → List (List Char × Cached) → Int × List (List Char × Cached)
  | bytes,[] => (bytes,[])
  | bytes,entry::rest => if CACHE_BYTES < bytes then evict (bytes - costOf entry.2) rest else (bytes,entry::rest)

theorem evict_suffix (bytes : Int) (entries : List (List Char × Cached)) : (evict bytes entries).2 <:+ entries := by
  induction entries generalizing bytes with
  | nil => exact suffix_rfl
  | cons entry rest ih =>
    unfold evict
    split
    next => exact (ih _).trans (suffix_cons _ _)
    next => exact suffix_rfl

def State.remember (state : State) (row : Version) (value : Cached) : State :=
  { state with
    cache := (state.cache.set row.key value).behind
      (evict (state.bytes + costOf value) (state.cache.set row.key value).entries).2 (evict_suffix _ _)
    bytes := (evict (state.bytes + costOf value) (state.cache.set row.key value).entries).1
    remembered := (row,value)::state.remembered }

def step (state : State) : Event → Option State
  | .asks call row crowded =>
    if (state.calls.lookup call).isSome then none
    else
      match state.cache.get row.key with
      | some known =>
        some { state with
          cache := (state.cache.delete row.key).set row.key known
          answered := (row,known)::state.answered }
      | none =>
        if row.sizeBytes = 0 then some (state.remember row none)
        -- `ThumbnailBusyError`
        else if crowded then some state
        else some { state with calls := state.calls.insert call (.opening row) }
  | .opens call size =>
    match state.calls.lookup call with
    | some (.opening row) =>
      match size with
      | none => some { state with calls := state.calls.erase call }
      | some size =>
        if min size HEAD_BYTES = 0 then some { state with calls := state.calls.erase call }
        else some { state with calls := state.calls.insert call (.reading row (size = row.sizeBytes)) }
    | _ => none
  | .reads call head =>
    match state.calls.lookup call with
    | some (.reading row fresh) =>
      match head with
      -- `ThumbnailUnreadableError`
      | none => some { state with calls := state.calls.erase call }
      | some head =>
        match embeddedThumbnail head with
        | .error _ => some { state with calls := state.calls.erase call }
        | .ok found =>
          if fresh then
            some (({ state with calls := state.calls.erase call, heads := (row,head)::state.heads } : State).remember row found)
          else some { state with calls := state.calls.erase call, heads := (row,head)::state.heads }
    | _ => none

def Spares (state : State) : Event → Prop
  | .reads call _ => ∀ row, state.calls.lookup call = some (.reading row true) → state.cache.get row.key = none
  | _ => True

/-- `bytes` is what the entries cost, and within the bound. -/
structure Counted (state : State) : Prop where
  exact' : state.bytes = OrderedMap.weight costOf state.cache.entries
  bounded : state.bytes ≤ CACHE_BYTES

/-- The answers given and kept are those of their own rows, and none of them stands for a read that failed. -/
structure Honest (state : State) : Prop where
  answered : ∀ row value, (row,value) ∈ state.answered → (row,value) ∈ state.remembered
  cached : ∀ key value, (key,value) ∈ state.cache.entries → ∃ row, key = row.key ∧ (row,value) ∈ state.remembered
  read : ∀ row value, (row,value) ∈ state.remembered → (row.sizeBytes = 0 ∧ value = none) ∨
    ∃ head, (row,head) ∈ state.heads ∧ embeddedThumbnail head = .ok value

theorem evict_counts {bytes : Int} {entries : List (List Char × Cached)} (counted : bytes = OrderedMap.weight costOf entries) :
    (evict bytes entries).1 = OrderedMap.weight costOf (evict bytes entries).2 ∧ (evict bytes entries).1 ≤ CACHE_BYTES := by
  induction entries generalizing bytes with
  | nil =>
    refine ⟨counted,?_⟩
    rw [evict,counted]
    exact Int.natCast_nonneg _
  | cons entry rest ih =>
    unfold evict
    split
    next =>
      apply ih
      rw [counted,OrderedMap.weight,map_cons,sum_cons]
      unfold OrderedMap.weight
      omega
    next fits => exact ⟨counted,Int.not_lt.mp fits⟩

variable {state next : State} {event : Event} {row : Version} {value : Cached}

theorem Counted.remembers (counted : Counted state) (missing : state.cache.get row.key = none) :
    Counted (state.remember row value) := by
  have grown : state.bytes + costOf value = OrderedMap.weight costOf (state.cache.set row.key value).entries := by
    rw [OrderedMap.weight_set costOf (OrderedMap.get_none missing),counted.exact']
    push_cast
    rfl
  obtain ⟨exact',bounded⟩ := evict_counts grown
  exact ⟨exact',bounded⟩

theorem step_counted (counted : Counted state) (spares : Spares state event) (taken : step state event = some next) :
    Counted next := by
  cases event with simp only [step] at taken
  | asks call row crowded =>
    obtain ⟨-,taken⟩ := of_unless taken
    split at taken
    next known found =>
      cases taken
      have same : OrderedMap.weight costOf ((state.cache.delete row.key).set row.key known).entries =
          OrderedMap.weight costOf state.cache.entries :=
        (OrderedMap.weight_set costOf OrderedMap.missing_delete).trans (OrderedMap.weight_delete costOf found)
      exact ⟨counted.exact'.trans (congrArg Int.ofNat same.symm),counted.bounded⟩
    next missing =>
      split_ifs at taken <;> cases taken
      · exact counted.remembers missing
      · exact counted
      · exact ⟨counted.exact',counted.bounded⟩
  | opens call size =>
    split at taken
    next =>
      split at taken
      next => cases taken; exact ⟨counted.exact',counted.bounded⟩
      next => split_ifs at taken <;> cases taken <;> exact ⟨counted.exact',counted.bounded⟩
    next => cases taken
  | reads call head =>
    split at taken
    next row fresh held =>
      split at taken
      next => cases taken; exact ⟨counted.exact',counted.bounded⟩
      next head =>
        split at taken
        next => cases taken; exact ⟨counted.exact',counted.bounded⟩
        next found _ =>
          split_ifs at taken with is
          · cases taken
            have missing := spares row (is ▸ held)
            exact Counted.remembers ⟨counted.exact',counted.bounded⟩ missing
          · cases taken
            exact ⟨counted.exact',counted.bounded⟩
    next => cases taken

theorem key_injective : Function.Injective Version.key := by
  have plain : ∀ number : Int, ':' ∉ Decimal.render number := by
    intro number member
    rcases Decimal.mem_render member with digit | same
    · cases digit
    · cases same
  intro ⟨one,size,time⟩ ⟨other,length,moment⟩ same
  simp only [Version.key] at same
  have last := congrArg (Text.rsplitOnce ':') same
  rw [← cons_append,← append_assoc,← cons_append,← append_assoc,
    Text.rsplitOnce_append _ (plain time),Text.rsplitOnce_append _ (plain moment)] at last
  obtain ⟨front,times⟩ := Prod.mk.inj (Option.some.inj last)
  have middle := congrArg (Text.rsplitOnce ':') front
  rw [Text.rsplitOnce_append _ (plain size),Text.rsplitOnce_append _ (plain length)] at middle
  obtain ⟨ids,sizes⟩ := Prod.mk.inj (Option.some.inj middle)
  have number : ∀ {first second : Int}, Decimal.render first = Decimal.render second → first = second := by
    intro first second written
    have read := congrArg Decimal.signed written
    rw [Decimal.signed_render,Decimal.signed_render] at read
    exact Option.some.inj read
  rw [ids,Int.ofNat.inj (number sizes),number times]

theorem Honest.remembers (honest : Honest state) (true' : (row.sizeBytes = 0 ∧ value = none) ∨
    ∃ head, (row,head) ∈ state.heads ∧ embeddedThumbnail head = .ok value) : Honest (state.remember row value) := by
  constructor
  · exact fun other given member => mem_cons_of_mem _ (honest.answered other given member)
  · intro key kept member
    rcases OrderedMap.mem_set ((evict_suffix _ _).subset member) with same | before
    · cases same
      exact ⟨row,rfl,mem_cons_self⟩
    · obtain ⟨owner,same,known⟩ := honest.cached key kept before
      exact ⟨owner,same,mem_cons_of_mem _ known⟩
  · intro other given member
    rcases mem_cons.mp member with same | before
    · cases same
      exact true'
    · exact honest.read other given before

theorem Honest.reads (honest : Honest state) (calls : Table Nat Call) (heads : List (Version × List UInt8))
    (more : state.heads ⊆ heads) : Honest { state with calls := calls, heads := heads } := by
  refine ⟨honest.answered,honest.cached,fun row value member => ?_⟩
  rcases honest.read row value member with empty | ⟨head,seen,found⟩
  · exact .inl empty
  · exact .inr ⟨head,more seen,found⟩

theorem step_honest (honest : Honest state) (taken : step state event = some next) : Honest next := by
  have goes (calls : Table Nat Call) : Honest { state with calls := calls } := honest.reads calls state.heads (List.Subset.refl _)
  cases event with simp only [step] at taken
  | asks call row crowded =>
    obtain ⟨-,taken⟩ := of_unless taken
    split at taken
    next known found =>
      cases taken
      obtain ⟨owner,same,mine⟩ := honest.cached _ _ (OrderedMap.get_some found)
      rw [← key_injective same] at mine
      refine ⟨fun other given member => ?_,fun key kept member => ?_,honest.read⟩
      · rcases mem_cons.mp member with same | before
        · cases same
          exact mine
        · exact honest.answered other given before
      · rcases OrderedMap.mem_set member with same | before
        · cases same
          exact ⟨row,rfl,mine⟩
        · exact honest.cached key kept (mem_of_mem_filter before)
    next =>
      split_ifs at taken with empty <;> cases taken
      · exact honest.remembers (.inl ⟨empty,rfl⟩)
      · exact honest
      · exact goes _
  | opens call size =>
    split at taken
    next =>
      split at taken
      next => cases taken; exact goes _
      next => split_ifs at taken <;> cases taken <;> exact goes _
    next => cases taken
  | reads call head =>
    split at taken
    next row fresh held =>
      split at taken
      next => cases taken; exact goes _
      next head =>
        split at taken
        next => cases taken; exact goes _
        next found is =>
          have seen := honest.reads (state.calls.erase call) ((row,head)::state.heads) (subset_cons_self _ _)
          split_ifs at taken <;> cases taken
          · exact seen.remembers (.inr ⟨head,mem_cons_self,is⟩)
          · exact seen
    next => cases taken

theorem honest_first : Honest .first := by
  constructor <;> intro _ _ member <;> cases member

/-- The answers are their rows' own in every state. The count is exact and within its bound as long as no call puts
in an answer that another call for the same version has put in since it looked.
-/
theorem cache_exact (events : List Event) {state : State} (ran : Machine.run step .first events = some state) :
    Honest state ∧ (Machine.Meets step Spares .first events → Counted state) := by
  constructor
  · exact run_invariant_always step (fun _ _ _ held taken => step_honest held taken) honest_first ran
  · intro spares
    exact run_invariant step (fun _ _ _ held admitted taken => step_counted held admitted taken)
      ⟨rfl,by decide⟩ spares ran

private def photo : Version := ⟨['f'],9,5⟩

theorem cache_exact_once : ∃ state, Machine.run step .first [.asks 1 photo false,.opens 1 (some 9),.reads 1 (some [])] =
    some state ∧ Honest state ∧ state.bytes = 256 := by
  refine ⟨_,rfl,?_,by decide +kernel⟩
  exact (cache_exact [.asks 1 photo false,.opens 1 (some 9),.reads 1 (some [])] rfl).1

/-- Two calls for one version miss it both, and both count it. -/
theorem cache_counts_twice : ∃ state, Machine.run step .first [.asks 1 photo false,.asks 2 photo false,.opens 1 (some 9),
    .opens 2 (some 9),.reads 1 (some []),.reads 2 (some [])] = some state ∧ ¬Counted state := by
  refine ⟨_,rfl,fun counted => ?_⟩
  exact absurd counted.exact' (by decide +kernel)

end Depsis.Files.Thumbnails
