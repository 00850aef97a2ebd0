import Depsis.Permissions.Service

/-! What the user lists of a preview say: each user whose set moves somewhere in
the scope, once, with the sets of the first folder where it does.
-/
namespace Depsis.Permissions

open Depsis.Authz Depsis.Foundation List

def Lists (permissions : List Permission) (holds : Permission → Prop) : Prop :=
  permissions = sortPermissions permissions ∧ ∀ permission, permission ∈ permissions ↔ holds permission

def Widens (before after : Permission → Prop) : Prop := ∃ permission, after permission ∧ ¬before permission

def Earlier (first second : String × Nat) : Prop :=
  first.2 < second.2 ∨ (first.2 = second.2 ∧ JsString.lt first.1 second.1 = true)

/-- The rows are the users whose set moved in the scope, with the sets of the first node
where it did. -/
structure Reports (rows : List AffectedUserView) (subjects : Subject → Prop) (scope : String → Nat → Prop)
    (moved : Subject → String → Prop) (had has : Subject → String → Permission → Prop)
    (username : String → String) : Prop where
  once : (rows.map AffectedUserView.userId).Nodup
  complete : ∀ subject id rank, subjects subject → scope id rank → moved subject id →
    ∃ row ∈ rows, row.userId = subject.userId
  exact : ∀ row ∈ rows, ∃ subject id rank, subjects subject ∧ row.userId = subject.userId ∧ scope id rank ∧
    moved subject id ∧ (∀ other level, scope other level → moved subject other →
      other = id ∨ Earlier (id,rank) (other,level)) ∧
    row.username = username row.userId ∧ Lists row.before (had subject id) ∧ Lists row.after (has subject id)

variable {ranked : List (String × Nat)} {folderOf : String → FolderImpact} {side : FolderImpact → List UserImpact}
  {subjects : Subject → Prop} {scope : String → Nat → Prop} {moved : Subject → String → Prop}
  {had has : Subject → String → Permission → Prop} {username : String → String}

theorem reports_rollUp (ordered : ranked.Pairwise Earlier) (listed : ∀ id rank, (id,rank) ∈ ranked ↔ scope id rank)
    (distinct : ∀ id rank, (id,rank) ∈ ranked → ((side (folderOf id)).map UserImpact.userId).Nodup)
    (sound : ∀ id rank, (id,rank) ∈ ranked → ∀ user ∈ side (folderOf id), ∃ subject, subjects subject ∧
      user.userId = subject.userId ∧ moved subject id ∧ Lists user.before (had subject id) ∧
        Lists user.after (has subject id))
    (complete : ∀ id rank, (id,rank) ∈ ranked → ∀ subject, subjects subject → moved subject id →
      subject.userId ∈ (side (folderOf id)).map UserImpact.userId) :
    Reports ((rollUp side (ranked.map (fun entry => folderOf entry.1))).map (viewOf username)) subjects scope moved
      had has username := by
  have ids (users : List UserImpact) :
      (users.map (viewOf username)).map AffectedUserView.userId = users.map UserImpact.userId := by
    simp [viewOf,Function.comp_def]
  refine ⟨by rw [ids]; exact rollUp_nodup,fun subject id rank member inside moves => ?_,fun row member => ?_⟩
  · have reported : subject.userId ∈ (rollUp side (ranked.map (fun entry => folderOf entry.1))).map UserImpact.userId :=
      ids_rollUp.mpr ⟨folderOf id,mem_map.mpr ⟨(id,rank),(listed id rank).mpr inside,rfl⟩,
        complete id rank ((listed id rank).mpr inside) subject member moves⟩
    rw [← ids] at reported
    exact mem_map.mp reported
  · obtain ⟨user,reported,rfl⟩ := mem_map.mp member
    have groups : ∀ folder ∈ ranked.map (fun entry => folderOf entry.1),
        ((side folder).map UserImpact.userId).Nodup := by
      intro folder made
      obtain ⟨⟨id,rank⟩,inside,rfl⟩ := mem_map.mp made
      exact distinct id rank inside
    obtain ⟨front,folder,back,split,inFolder,earlier⟩ := (mem_rollUp groups).mp reported
    obtain ⟨before,later,rfl,rfl,behind⟩ := map_eq_append_iff.mp split
    obtain ⟨⟨id,rank⟩,after,rfl,rfl,rfl⟩ := map_eq_cons_iff.mp behind
    have inside : (id,rank) ∈ before ++ (id,rank)::after := mem_append_right _ mem_cons_self
    obtain ⟨subject,known,same,moves,lists⟩ := sound id rank inside user inFolder
    refine ⟨subject,id,rank,known,same,(listed id rank).mp inside,moves,fun other level within again => ?_,rfl,lists⟩
    rcases mem_append.mp ((listed other level).mpr within) with sooner | here
    · have shown := complete other level (mem_append_left _ sooner) subject known again
      exact absurd (same ▸ shown) (earlier _ (mem_map.mpr ⟨(other,level),sooner,rfl⟩))
    · rcases mem_cons.mp here with equal | further
      · cases equal
        exact .inl rfl
      · exact .inr ((pairwise_cons.mp (pairwise_append.mp ordered).2.1).1 _ further)

end Depsis.Permissions
