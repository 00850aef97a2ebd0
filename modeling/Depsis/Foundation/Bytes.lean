import Mathlib.Algebra.GroupWithZero.Nat
import Mathlib.Data.List.Basic

/-! Stretches of a list by their places, and numbers written in bytes.
-/
namespace Depsis.Foundation.Bytes

open List

variable {α : Type}

def slice (list : List α) (start stop : Nat) : List α := (list.take stop).drop start

def Lies (list : List α) (place : Nat) (content : List α) : Prop :=
  ∃ front back, list = front ++ content ++ back ∧ front.length = place

theorem Lies.fits {list content : List α} {place : Nat} (lies : Lies list place content) :
    place + content.length ≤ list.length := by
  obtain ⟨front,back,rfl,rfl⟩ := lies
  simp only [length_append]
  omega

theorem Lies.slice_eq {list content : List α} {place : Nat} (lies : Lies list place content) :
    slice list place (place + content.length) = content := by
  obtain ⟨front,back,rfl,rfl⟩ := lies
  rw [slice,← length_append,take_left,drop_left]

theorem slice_lies (list : List α) {start stop : Nat} (order : start ≤ stop) (fits : stop ≤ list.length) :
    Lies list start (slice list start stop) := by
  refine ⟨list.take start,list.drop stop,?_,?_⟩
  · have cut : list.take start = (list.take stop).take start := by rw [take_take,Nat.min_eq_left order]
    rw [slice,cut,take_append_drop,take_append_drop]
  · rw [length_take]
    omega

theorem length_slice (list : List α) {start stop : Nat} (fits : stop ≤ list.length) :
    (slice list start stop).length = stop - start := by
  rw [slice,length_drop,length_take]
  omega

theorem Lies.left {list front back : List α} {place : Nat} (lies : Lies list place (front ++ back)) : Lies list place front := by
  obtain ⟨before,after,rfl,size⟩ := lies
  exact ⟨before,back ++ after,by simp,size⟩

theorem Lies.right {list front back : List α} {place : Nat} (lies : Lies list place (front ++ back)) :
    Lies list (place + front.length) back := by
  obtain ⟨before,after,rfl,rfl⟩ := lies
  exact ⟨before ++ front,after,by simp,by simp⟩

theorem Lies.tail {list rest : List α} {first : α} {place : Nat} (lies : Lies list place (first::rest)) :
    Lies list (place + 1) rest := @Lies.right _ _ [first] rest place lies

theorem Lies.trans {list content inner : List α} {place offset : Nat} (lies : Lies list place content)
    (inside : Lies content offset inner) : Lies list (place + offset) inner := by
  obtain ⟨before,after,rfl,rfl⟩ := lies
  obtain ⟨front,back,rfl,rfl⟩ := inside
  exact ⟨before ++ front,back ++ after,by simp,by simp⟩

theorem Lies.getElem? {list : List α} {place : Nat} {first : α} {rest : List α} (lies : Lies list place (first::rest)) :
    list[place]? = some first := by
  obtain ⟨before,after,rfl,rfl⟩ := lies
  simp

theorem lies_whole (list : List α) : Lies list 0 list := ⟨[],[],by simp,rfl⟩

def number : List UInt8 → Nat
  | [] => 0
  | byte::rest => byte.toNat + 256 * number rest

def little : Nat → Nat → List UInt8
  | 0,_ => []
  | width + 1,value => UInt8.ofNat (value % 256)::little width (value / 256)

@[simp] theorem length_little (width value : Nat) : (little width value).length = width := by
  induction width generalizing value with
  | zero => rfl
  | succ width ih => rw [little,length_cons,ih]

theorem number_little {width value : Nat} (fits : value < 256 ^ width) : number (little width value) = value := by
  induction width generalizing value with
  | zero =>
    rw [Nat.pow_zero] at fits
    rw [little,number]
    omega
  | succ width ih =>
    have less : value / 256 < 256 ^ width := by
      rw [Nat.pow_succ] at fits
      exact Nat.div_lt_of_lt_mul (by rwa [Nat.mul_comm])
    have byte : (UInt8.ofNat (value % 256)).toNat = value % 256 := UInt8.toNat_ofNat_of_lt' (Nat.mod_lt _ (by decide))
    rw [little,number,ih less,byte]
    omega

theorem number_lt (bytes : List UInt8) : number bytes < 256 ^ bytes.length := by
  induction bytes with
  | nil => exact Nat.one_pos
  | cons byte rest ih =>
    have small := byte.toNat_lt
    rw [number,length_cons,Nat.pow_succ]
    omega

end Depsis.Foundation.Bytes
