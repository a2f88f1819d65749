import F3fs.Shrinker.Budget
import Mathlib.Algebra.Order.Group.Int

/-!
# `f3fs_shrink_count`

shrinker.c, lines 19-71.  The count walks the list from the head; a record whose `umount_mutex`
cannot be taken is stepped past, the others add their three counts to an `unsigned long` total.

The three helpers are translated with the C types of what they read:

* `countExtentCache`  `atomic_read` gives `int`s: their sum is an `int` sum (wrapping at `2 ^ 31`),
                      returned as an `unsigned long`;
* `countNatEntries`   an `unsigned int` counter;
* `countFreeNids`     `nid_cnt[FREE_NID] - MAX_FREE_NIDS` is an `unsigned long` subtraction
                      (`MAX_FREE_NIDS`, from node.h, is a `size_t` product), stored in a `long`
                      and clamped at `0`.

`MAX_FREE_NIDS` is the parameter `M`, `BITS_PER_LONG` is `w`.  `shrinkCount_sum`: when each
record's `int` sum does not overflow and its free-nid excess is below `2 ^ (w - 1)`, the count is
the exact sum of `zombie + ext_node + nat + max 0 (nid - M)` over the records it can lock
(`shrinkCount_exact`, in `Concurrent/Tally.lean`, adds that the call leaves the world as it was).
-/

namespace F3fs

/-- The counters of one instance that `f3fs_shrink_count` reads. -/
structure Counters where
  /-- `atomic_read(&sbi->total_zombie_tree)` -/
  totalZombieTree : Int
  /-- `atomic_read(&sbi->total_ext_node)` -/
  totalExtNode : Int
  /-- `NM_I(sbi)->nat_cnt[RECLAIMABLE_NAT]` -/
  reclaimableNat : Nat
  /-- `NM_I(sbi)->nid_cnt[FREE_NID]` -/
  freeNid : Nat

/-- An `int` result: two's complement on 32 bits. -/
def int32 (x : Int) : Int := (x + 2 ^ 31) % 2 ^ 32 - 2 ^ 31

/-- Conversion to `unsigned long`. -/
def toULong (w : Nat) (x : Int) : Nat := (x % (2 ^ w : Nat)).toNat

/-- Conversion of an `unsigned long` to `long`. -/
def toLong (w : Nat) (x : Nat) : Int := if x < 2 ^ (w - 1) then x else (x : Int) - (2 ^ w : Nat)

section
variable (w M : Nat)

/-- `__count_extent_cache` -/
def countExtentCache (c : Counters) : Nat := toULong w (int32 (c.totalZombieTree + c.totalExtNode))

/-- `__count_nat_entries` -/
def countNatEntries (c : Counters) : Nat := c.reclaimableNat

/-- `__count_free_nids`: `long count = nid_cnt[FREE_NID] - MAX_FREE_NIDS; return count > 0 ?
count : 0;` -/
def countFreeNids (c : Counters) : Nat :=
  let count := toLong w (toULong w ((c.freeNid : Int) - M))
  if count > 0 then count.toNat else 0

/-- Lines 56-63: the three counts of `sbi` added to `count`. -/
def addCounts (c : Counters) (count : Nat) : Nat :=
  (((count + countExtentCache w c) % 2 ^ w + countNatEntries c) % 2 ^ w + countFreeNids w M c) %
    2 ^ w

/-- The loop of lines 46-68 on the list `l` from the cursor `p`, for at most `fuel` passes. -/
def countLoop (trylock : Nat → Bool) (cnt : Nat → Counters) (l : List Nat) :
    Nat → Option Nat → Nat → Option Nat
  | 0, _, _ => none
  | _ + 1, none, count => some count
  | fuel + 1, some sbi, count =>
    if trylock sbi = false then countLoop trylock cnt l fuel (nextOf l sbi) count
    else countLoop trylock cnt l fuel (nextOf l sbi) (addCounts w M (cnt sbi) count)

/-- `f3fs_shrink_count` on the list `l`, with the trylock outcomes and the counters of each
record. -/
def f3fsShrinkCount (trylock : Nat → Bool) (cnt : Nat → Counters) (l : List Nat) : Option Nat :=
  countLoop w M trylock cnt l (l.length + 1) l.head? 0

/-- The count as a fold over the list: the loop's cursor visits the records in order. -/
def countFold (trylock : Nat → Bool) (cnt : Nat → Counters) : List Nat → Nat → Nat
  | [], count => count
  | sbi :: B, count =>
    countFold trylock cnt B (if trylock sbi = false then count else addCounts w M (cnt sbi) count)

theorem countLoop_fold (trylock : Nat → Bool) (cnt : Nat → Counters) :
    ∀ (B A : List Nat) (fuel count : Nat), (A ++ B).Nodup → B.length < fuel →
      countLoop w M trylock cnt (A ++ B) fuel B.head? count =
        some (countFold w M trylock cnt B count)
  | [], A, fuel + 1, count, _, _ => rfl
  | b :: B, A, fuel + 1, count, hnd, hlen => by
    have hb : b ∉ A := (List.nodup_middle.mp hnd |> List.nodup_cons.mp).1 ∘ List.mem_append_left B
    have ih := countLoop_fold trylock cnt B (A ++ [b]) fuel
    simp only [List.append_assoc, List.singleton_append] at ih
    simp only [countLoop, countFold, List.head?_cons, nextOf_mid A B hb]
    split <;> exact ih _ hnd (by simpa using hlen)

theorem f3fsShrinkCount_eq (trylock : Nat → Bool) (cnt : Nat → Counters) (l : List Nat)
    (hl : l.Nodup) : f3fsShrinkCount w M trylock cnt l = some (countFold w M trylock cnt l 0) :=
  countLoop_fold w M trylock cnt l [] _ 0 hl (by omega)

end

theorem int32_of_lt {x : Int} (h0 : -2 ^ 31 ≤ x) (h1 : x < 2 ^ 31) : int32 x = x := by
  simp only [int32]; rw [Int.emod_eq_of_lt (by omega) (by omega)]; omega

theorem toULong_of_lt {w : Nat} {x : Int} (h0 : 0 ≤ x) (h1 : x < (2 ^ w : Nat)) :
    toULong w x = x.toNat := by
  simp only [toULong]; rw [Int.emod_eq_of_lt h0 h1]

section
variable (w M : Nat)

/-- What each record adds to the count, computed without overflow. -/
def exactCount (c : Counters) : Nat :=
  (c.totalZombieTree + c.totalExtNode).toNat + c.reclaimableNat + (c.freeNid - M)

theorem countExtentCache_eq (c : Counters) (h0 : 0 ≤ c.totalZombieTree) (h1 : 0 ≤ c.totalExtNode)
    (h31 : c.totalZombieTree + c.totalExtNode < 2 ^ 31)
    (hw : c.totalZombieTree + c.totalExtNode < (2 ^ w : Nat)) :
    countExtentCache w c = (c.totalZombieTree + c.totalExtNode).toNat := by
  rw [countExtentCache, int32_of_lt (by omega) h31, toULong_of_lt (by omega) hw]

theorem countFreeNids_eq (c : Counters) (hw : 1 ≤ w) (hM : M ≤ 2 ^ (w - 1))
    (hex : c.freeNid - M < 2 ^ (w - 1)) : countFreeNids w M c = c.freeNid - M := by
  have h2 : (2 ^ w : Nat) = 2 * 2 ^ (w - 1) := by
    rw [← Nat.pow_succ']; congr 1; omega
  simp only [countFreeNids, toLong, toULong, h2]
  generalize 2 ^ (w - 1) = K at *
  rcases Nat.lt_or_ge c.freeNid M with h | h
  · have hv : ((c.freeNid : Int) - M) % ((2 * K : Nat) : Int) = c.freeNid - M + 2 * K := by
      rw [← Int.add_emod_self, Int.emod_eq_of_lt (by omega) (by omega)]; omega
    rw [hv]; split <;> split <;> omega
  · have hv : ((c.freeNid : Int) - M) % ((2 * K : Nat) : Int) = c.freeNid - M :=
      Int.emod_eq_of_lt (by omega) (by omega)
    rw [hv]; split <;> split <;> omega

/-- A record's counters as `f3fs_shrink_count` can add them exactly: non-negative `atomic_t`s
whose `int` sum does not overflow, and a free-nid excess that fits in a `long`. -/
def Counters.InRange (c : Counters) : Prop :=
  0 ≤ c.totalZombieTree ∧ 0 ≤ c.totalExtNode ∧ c.totalZombieTree + c.totalExtNode < 2 ^ 31 ∧
    c.freeNid - M < 2 ^ (w - 1)

instance (c : Counters) : Decidable (c.InRange w M) := inferInstanceAs (Decidable (_ ∧ _))

/-- What the count should be: the exact counts of the records whose trylock succeeds. -/
def countSum (trylock : Nat → Bool) (cnt : Nat → Counters) : List Nat → Nat
  | [] => 0
  | sbi :: B => (if trylock sbi = false then 0 else exactCount M (cnt sbi)) + countSum trylock cnt B

variable {w M}

theorem addCounts_eq {c : Counters} (hc : c.InRange w M) (hw : 1 ≤ w) (hM : M ≤ 2 ^ (w - 1))
    {count : Nat} (hfit : count + exactCount M c < 2 ^ w) :
    addCounts w M c count = count + exactCount M c := by
  obtain ⟨h0, h1, h31, hex⟩ := hc
  have hsum : c.totalZombieTree + c.totalExtNode < ((2 ^ w : Nat) : Int) := by
    simp only [exactCount] at hfit; omega
  simp only [addCounts, countExtentCache_eq w c h0 h1 h31 hsum, countNatEntries,
    countFreeNids_eq w M c hw hM hex]
  simp only [exactCount] at hfit ⊢
  simp (disch := omega) only [Nat.mod_eq_of_lt]
  omega

theorem countFold_eq (trylock : Nat → Bool) (cnt : Nat → Counters) (hw : 1 ≤ w)
    (hM : M ≤ 2 ^ (w - 1)) :
    ∀ (B : List Nat) (count : Nat), (∀ sbi ∈ B, (cnt sbi).InRange w M) →
      count + countSum M trylock cnt B < 2 ^ w →
      countFold w M trylock cnt B count = count + countSum M trylock cnt B
  | [], _, _, _ => rfl
  | sbi :: B, count, hB, hfit => by
    simp only [List.mem_cons, forall_eq_or_imp] at hB
    cases ht : trylock sbi <;>
      simp only [countSum, countFold, ht, ↓reduceIte, Bool.true_eq_false] at hfit ⊢
    · rw [countFold_eq trylock cnt hw hM B count hB.2 (by omega)]; omega
    · rw [addCounts_eq hB.1 hw hM (by omega),
        countFold_eq trylock cnt hw hM B _ hB.2 (by omega)]; omega

/-- The count is exact on a duplicate-free list when each record's `int` sum does not overflow,
each free-nid excess fits in a `long`, `MAX_FREE_NIDS ≤ 2 ^ (BITS_PER_LONG - 1)` and the total
fits in an `unsigned long`. -/
theorem shrinkCount_sum (trylock : Nat → Bool) (cnt : Nat → Counters) (l : List Nat)
    (hl : l.Nodup) (hw : 1 ≤ w) (hM : M ≤ 2 ^ (w - 1)) (hc : ∀ sbi ∈ l, (cnt sbi).InRange w M)
    (hfit : countSum M trylock cnt l < 2 ^ w) :
    f3fsShrinkCount w M trylock cnt l = some (countSum M trylock cnt l) := by
  rw [f3fsShrinkCount_eq w M trylock cnt l hl, countFold_eq trylock cnt hw hM l 0 hc (by omega),
    Nat.zero_add]

end

/-- Two non-negative `atomic_t`s of `2 ^ 30` each: the count's exact total is `2 ^ 31`, but
their `int` sum wraps to `-2 ^ 31`, which `__count_extent_cache` returns as
`2 ^ 64 - 2 ^ 31`. -/
theorem shrinkCount_int_overflow :
    countSum 3640 (fun _ => true) (fun _ => ⟨2 ^ 30, 2 ^ 30, 0, 3640⟩) [0] = 2 ^ 31 ∧
      f3fsShrinkCount 64 3640 (fun _ => true) (fun _ => ⟨2 ^ 30, 2 ^ 30, 0, 3640⟩) [0] =
        some (2 ^ 64 - 2 ^ 31) := by
  decide

end F3fs
