import Mathlib.Data.List.Nodup
import Mathlib.Algebra.Group.Nat.Basic

/-!
# The shrinker list: `list_head` operations on the sequence of records

`f3fs_list` (shrinker.c) is a circular doubly linked list threaded through `sbi->s_list`.  Here
it is the sequence of the records on it, first to last; a record is its `f3fs_sb_info`, named by
a `Nat`.  A cursor `p` is `none` for the list head `&f3fs_list` and `some sbi` for
`&sbi->s_list`.

* `nextOf l sbi`     `p->next` from a record: the record after it, the head after the last
                     one, and the record itself when it is not on the list (`list_del_init`
                     and `INIT_LIST_HEAD` leave a node linked to itself);
* `listAddTail`, `listDelInit`, `listMoveTail`   the updates of shrinker.c.

On a duplicate-free list, `p->next` of a record in the middle is the head of what follows it
(`nextOf_mid`), and `list_move_tail` cuts the record out and appends it (`listMoveTail_mid`).
-/

namespace F3fs

/-- `p->next` from the node of `sbi` on the list `l`. -/
def nextOf : List Nat → Nat → Option Nat
  | [], sbi => some sbi
  | [a], sbi => if a = sbi then none else some sbi
  | a :: b :: l, sbi => if a = sbi then some b else nextOf (b :: l) sbi

/-- `list_add_tail(&sbi->s_list, &f3fs_list)` -/
def listAddTail (l : List Nat) (sbi : Nat) : List Nat := l ++ [sbi]

/-- `list_del_init(&sbi->s_list)` -/
def listDelInit (l : List Nat) (sbi : Nat) : List Nat := l.erase sbi

/-- `list_move_tail(&sbi->s_list, &f3fs_list)`: unlink, then add at the tail. -/
def listMoveTail (l : List Nat) (sbi : Nat) : List Nat := l.erase sbi ++ [sbi]

theorem nextOf_cons_ne {a sbi : Nat} {l : List Nat} (h : a ≠ sbi) (hl : l ≠ []) :
    nextOf (a :: l) sbi = nextOf l sbi := by
  match l, hl with
  | b :: l, _ => simp [nextOf, h]

theorem nextOf_head (sbi : Nat) (B : List Nat) : nextOf (sbi :: B) sbi = B.head? := by
  cases B <;> simp [nextOf]

/-- `p->next` of a record in the middle of the list: the first of what follows it. -/
theorem nextOf_mid {sbi : Nat} (A B : List Nat) (h : sbi ∉ A) :
    nextOf (A ++ sbi :: B) sbi = B.head? := by
  induction A with
  | nil => exact nextOf_head sbi B
  | cons a A ih =>
    simp only [List.mem_cons, not_or] at h
    rw [List.cons_append, nextOf_cons_ne (Ne.symm h.1) (by simp), ih h.2]

theorem nextOf_of_nodup {A B : List Nat} {sbi : Nat} (hl : (A ++ sbi :: B).Nodup) :
    nextOf (A ++ sbi :: B) sbi = B.head? :=
  nextOf_mid A B fun h => (List.nodup_append.1 hl).2.2 h (List.mem_cons_self sbi B)

theorem nextOf_not_mem {sbi : Nat} : ∀ {l : List Nat}, sbi ∉ l → nextOf l sbi = some sbi
  | [], _ => rfl
  | [a], h => by simp_all [nextOf, eq_comm]
  | a :: b :: l, h => by
    simp only [List.mem_cons, not_or] at h
    rw [nextOf_cons_ne (Ne.symm h.1) (by simp)]
    exact nextOf_not_mem (by simpa using h.2)

theorem nextOf_mem {l : List Nat} {sbi x : Nat} (hl : l.Nodup) (hs : sbi ∈ l)
    (hx : nextOf l sbi = some x) : x ∈ l := by
  obtain ⟨A, B, rfl⟩ := List.append_of_mem hs
  have hA : sbi ∉ A := (List.nodup_middle.mp hl |> List.nodup_cons.mp).1 ∘ List.mem_append_left B
  rw [nextOf_mid A B hA] at hx
  cases B with
  | nil => cases hx
  | cons b B => cases hx; simp

theorem listMoveTail_mid {sbi : Nat} (A B : List Nat) (h : sbi ∉ A) :
    listMoveTail (A ++ sbi :: B) sbi = A ++ B ++ [sbi] := by
  simp [listMoveTail, List.erase_append_right _ h]

@[simp] theorem mem_listMoveTail {l : List Nat} {sbi x : Nat} (hs : sbi ∈ l) :
    x ∈ listMoveTail l sbi ↔ x ∈ l := by
  by_cases hx : x = sbi
  · subst hx; simp [listMoveTail, hs]
  · simp [listMoveTail, List.mem_erase_of_ne hx, hx]

theorem listMoveTail_perm {l : List Nat} {sbi : Nat} (hs : sbi ∈ l) :
    List.Perm (listMoveTail l sbi) l :=
  (List.perm_append_singleton _ _).trans (List.perm_cons_erase hs).symm

theorem listMoveTail_nodup {l : List Nat} {sbi : Nat} (hl : l.Nodup) (hs : sbi ∈ l) :
    (listMoveTail l sbi).Nodup :=
  (listMoveTail_perm hs).nodup_iff.mpr hl

end F3fs
