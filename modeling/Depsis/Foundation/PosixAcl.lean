import Depsis.Foundation.Table

/-! POSIX access control lists of a directory, and what `setfacl` does to them. A
named entry counts only as far as the mask lets it.
-/
namespace Depsis.Foundation.PosixAcl

open Bool

structure Perms where
  read : Bool
  write : Bool
  execute : Bool

namespace Perms

def union (first second : Perms) : Perms :=
  ⟨first.read || second.read,first.write || second.write,first.execute || second.execute⟩

def within (inner outer : Perms) : Bool :=
  (!inner.read || outer.read) && (!inner.write || outer.write) && (!inner.execute || outer.execute)

theorem within_refl (perms : Perms) : perms.within perms = true := by
  simp [within]

theorem within_union_left (first second : Perms) : first.within (first.union second) = true := by
  simp [within,union,← Bool.or_assoc]

theorem within_union_right (first second : Perms) : second.within (first.union second) = true := by
  simp [within,union,Bool.or_left_comm]

theorem within_trans {first second third : Perms} (inner : first.within second = true)
    (outer : second.within third = true) : first.within third = true := by
  simp only [within,and_eq_true,or_eq_true,not_eq_true'] at inner outer ⊢
  obtain ⟨⟨one,two⟩,three⟩ := inner
  obtain ⟨⟨four,five⟩,six⟩ := outer
  refine ⟨⟨?_,?_⟩,?_⟩ <;> grind

end Perms

structure Triple where
  owner : Perms
  group : Perms
  other : Perms

inductive Tag where
  | user (uid : Nat)
  | group (gid : Nat)
deriving DecidableEq

structure Acl where
  base : Triple
  named : Table Tag Perms
  mask : Option Perms

namespace Acl

def minimal (base : Triple) : Acl := ⟨base,∅,none⟩

def ceiling (acl : Acl) : Perms := (acl.named.rows.map Prod.snd).foldl Perms.union acl.base.group

/-- `-m` without a mask entry: the listed entries are added or overwritten, the mask
computed anew. -/
def modify (acl : Acl) (entries : List (Tag × Perms)) : Acl :=
  let named := acl.named.fill entries
  ⟨acl.base,named,some (ceiling ⟨acl.base,named,none⟩)⟩

def Unmasked (acl : Acl) : Prop :=
  ∀ mask, acl.mask = some mask → acl.base.group.within mask = true ∧
    ∀ tag perms, acl.named.lookup tag = some perms → perms.within mask = true

theorem within_fold {perms first : Perms} {rest : List Perms}
    (listed : perms.within first = true ∨ perms ∈ rest) : perms.within (rest.foldl Perms.union first) = true := by
  induction rest generalizing first with
  | nil => exact listed.elim id (fun none => absurd none List.not_mem_nil)
  | cons next rest ih =>
    refine ih ?_
    rcases listed with inside | member
    · exact .inl (Perms.within_trans inside (Perms.within_union_left first next))
    · rcases List.mem_cons.mp member with rfl | later
      · exact .inl (Perms.within_union_right first perms)
      · exact .inr later

theorem minimal_unmasked (base : Triple) : (minimal base).Unmasked := by
  nofun

theorem modify_unmasked (acl : Acl) (entries : List (Tag × Perms)) : (acl.modify entries).Unmasked := by
  intro mask computed
  cases computed
  refine ⟨within_fold (.inl (Perms.within_refl _)),fun tag perms stored => within_fold (.inr ?_)⟩
  exact List.mem_map.mpr ⟨(tag,perms),AList.mem_rows.mpr stored,rfl⟩

end Acl

structure Folder where
  access : Acl
  inherited : Option Acl

namespace Folder

def clear (folder : Folder) : Folder := ⟨.minimal folder.access.base,none⟩

def modify (folder : Folder) (entries : List (Tag × Perms)) : Folder :=
  {folder with access := folder.access.modify entries}

/-- `setfacl -d -m`: a default list starts from the folder's own triple. -/
def modifyDefault (folder : Folder) (entries : List (Tag × Perms)) : Folder :=
  {folder with inherited := some ((folder.inherited.getD (.minimal folder.access.base)).modify entries)}

end Folder

end Depsis.Foundation.PosixAcl
