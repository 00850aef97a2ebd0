import Depsis.Foundation.Table

/-! Polling a table behind a mark: pages of the oldest rows that are newer than the mark, and how
many rows are left between a mark and a moment.
-/
namespace Depsis.Foundation.Polling

variable {Key Row : Type} [DecidableEq Key]

/-- What `WHERE time > since ORDER BY time LIMIT n` may answer; equal times come in any order. -/
def Page (limit : Nat) (time : Row → Nat) (selects : Key → Row → Bool) (since : Nat) (rows : Table Key Row)
    (page : List (Key × Row)) : Prop :=
  page.Nodup ∧ page.Pairwise (fun first second => time first.2 ≤ time second.2) ∧ page.length ≤ limit ∧
    (∀ entry ∈ page, rows.lookup entry.1 = some entry.2 ∧ selects entry.1 entry.2 ∧ since < time entry.2) ∧
    ∀ entry ∈ rows.rows, selects entry.1 entry.2 → since < time entry.2 →
      entry ∈ page ∨ (page.length = limit ∧ ∀ other ∈ page, time other.2 ≤ time entry.2)

instance [DecidableEq Row] (limit : Nat) (time : Row → Nat) (selects : Key → Row → Bool) (since : Nat) (rows : Table Key Row)
    (page : List (Key × Row)) : Decidable (Page limit time selects since rows page) :=
  inferInstanceAs (Decidable (_ ∧ _))

def span (time : Row → Nat) (rows : Table Key Row) (mark moment : Nat) : Nat :=
  (rows.rows.filter (fun entry => mark < time entry.2 && time entry.2 ≤ moment)).length

variable {limit since mark moment : Nat} {time : Row → Nat} {selects : Key → Row → Bool} {rows other : Table Key Row}
variable {page : List (Key × Row)} {key : Key} {row : Row}

theorem Page.newer (answered : Page limit time selects since rows page) {entry : Key × Row} (member : entry ∈ page) :
    rows.lookup entry.1 = some entry.2 ∧ selects entry.1 entry.2 = true ∧ since < time entry.2 :=
  answered.2.2.2.1 entry member

theorem Page.missed (answered : Page limit time selects since rows page) (stored : rows.lookup key = some row)
    (selected : selects key row = true) (newer : since < time row) (missed : (key,row) ∉ page) : page.length = limit := by
  rcases answered.2.2.2.2 (key,row) (AList.mem_rows.mpr stored) selected newer with listed | ⟨full,-⟩
  · exact absurd listed missed
  · exact full

theorem page_nil (old : ∀ entry ∈ rows.rows, time entry.2 ≤ since) : Page limit time selects since rows [] := by
  refine ⟨.nil,.nil,Nat.zero_le _,nofun,fun entry member _ newer => ?_⟩
  have before := old entry member
  omega

theorem mem_between {entry : Key × Row} :
    entry ∈ rows.rows.filter (fun entry => mark < time entry.2 && time entry.2 ≤ moment) ↔
      rows.lookup entry.1 = some entry.2 ∧ mark < time entry.2 ∧ time entry.2 ≤ moment := by
  rw [List.mem_filter,AList.mem_rows,Bool.and_eq_true,decide_eq_true_eq,decide_eq_true_eq]

omit [DecidableEq Key] in
theorem between_nodup : (rows.rows.filter (fun entry => mark < time entry.2 && time entry.2 ≤ moment)).Nodup :=
  (List.Nodup.of_map Prod.fst rows.rows_nodup).filter _

theorem span_le (later : Nat) (known : ∀ key row, other.lookup key = some row → later < time row → time row ≤ moment →
    rows.lookup key = some row ∧ mark < time row) : span time other later moment ≤ span time rows mark moment := by
  refine (List.subperm_of_subset between_nodup (fun entry member => ?_)).length_le
  obtain ⟨stored,newer,older⟩ := mem_between.mp member
  obtain ⟨before,newer⟩ := known entry.1 entry.2 stored newer older
  exact mem_between.mpr ⟨before,newer,older⟩

theorem span_pos (stored : rows.lookup key = some row) (newer : mark < time row) (older : time row ≤ moment) :
    0 < span time rows mark moment :=
  List.length_pos_of_mem (mem_between.mpr ⟨stored,newer,older⟩ : (key,row) ∈ _)

theorem span_lt {later : Nat} (stored : rows.lookup key = some row) (newer : mark < time row) (older : time row ≤ moment)
    (passed : time row ≤ later) : span time rows later moment < span time rows mark moment := by
  have inside : (key,row) ∈ rows.rows.filter (fun entry => mark < time entry.2 && time entry.2 ≤ moment) :=
    mem_between.mpr ⟨stored,newer,older⟩
  have outside : (key,row) ∉ rows.rows.filter (fun entry => later < time entry.2 && time entry.2 ≤ moment) :=
    fun member => absurd (mem_between.mp member).2.1 (by simpa using passed)
  have distinct : ((key,row) :: rows.rows.filter (fun entry => later < time entry.2 && time entry.2 ≤ moment)).Nodup :=
    List.nodup_cons.mpr ⟨outside,between_nodup⟩
  have fewer := (List.subperm_of_subset distinct (fun entry member => ?_ : _ ⊆
    rows.rows.filter (fun entry => mark < time entry.2 && time entry.2 ≤ moment))).length_le
  · exact Nat.lt_of_succ_le fewer
  · rcases List.mem_cons.mp member with rfl | member
    · exact inside
    · obtain ⟨stored,past,older⟩ := mem_between.mp member
      exact mem_between.mpr ⟨stored,by omega,older⟩

end Depsis.Foundation.Polling
