import F3fs.Sysfs.Store

/-!
# A failed store and the state it leaves

Every branch of `__sbi_store` checks its value before it writes, and `f3fs_sbi_store` fails on
`s_umount` before it calls it, so a store that returns an error leaves the instance as it was.
Two branches are apart: `extension_list` writes through `f3fs_update_extension_list` and undoes
the write when `f3fs_commit_super` fails, and `ckpt_thread_ioprio` writes
`cprc->ckpt_thread_ioprio` before `set_task_ioprio`, whose error it returns with the write kept.

* `Settled`                     a result is the byte count, or the instance unchanged;
* `f3fsSbiStore_settled`        every store but those two is settled;
* `f3fsSbiStore_error_unchanged`   so a failed one changes nothing;
* `ckptThreadIoprioStore_error_written`   every failure of the `ckpt_thread_ioprio` store: the
                                instance unchanged, or the failure of `set_task_ioprio` after the
                                write, which `ckptThreadIoprio_store_fails_written` shows at one
                                input.
-/

namespace F3fs

/-- A store's result: the byte count, or the instance as it was. -/
def Settled (count : Nat) (s : Sbi) (r : Int × Sbi) : Prop := r.1 = count ∨ r.2 = s

section
variable {k : Consts} {s : Sbi} {count : Nat}

theorem Settled.eq_of_neg {r : Int × Sbi} (h : Settled count s r) (hr : r.1 < 0) : r.2 = s :=
  h.resolve_left fun h' => by omega

theorem reservedBlocksStore_settled (ui : Loc) (t : Nat) :
    Settled count s (reservedBlocksStore ui t count s) := by
  unfold reservedBlocksStore; split_ifs <;> simp [Settled]

theorem discardGranularityStore_settled (ui : Loc) (t : Nat) :
    Settled count s (discardGranularityStore k ui t count s) := by
  unfold discardGranularityStore; split_ifs <;> simp [Settled]

theorem gcUrgentStore_settled (t : Nat) : Settled count s (gcUrgentStore k t count s) := by
  unfold gcUrgentStore; split_ifs <;> simp [Settled]

theorem gcIdleStore_settled (t : Nat) : Settled count s (gcIdleStore k t count s) := by
  unfold gcIdleStore; split_ifs <;> simp [Settled]

theorem rangeStore_settled (lo hi : Nat) (l : Loc) (t : Nat) :
    Settled count s (rangeStore lo hi l t count s) := by
  unfold rangeStore; split_ifs <;> simp [Settled]

theorem resetStore_settled (ls : List Loc) (t : Nat) :
    Settled count s (resetStore ls t count s) := by
  unfold resetStore; split_ifs <;> simp [Settled]

theorem gcSegmentModeStore_settled (t : Nat) :
    Settled count s (gcSegmentModeStore k t count s) := by
  unfold gcSegmentModeStore; split_ifs <;> simp [Settled]

theorem storeValue_settled (e : StoreEnv) (a : F3fsAttr) (ui : Loc) (t : Nat) :
    ∀ r, storeValue k e a ui t count s = some r → Settled count s r := by
  unfold storeValue
  repeat' refine (iteInduction
    (motive := fun x => ∀ r, x = some r → Settled count s r) (fun _ => ?_) (fun _ => ?_))
  all_goals rintro _ ⟨⟩
  -- one entry per branch, in the order of lines 453-655
  exacts [.inr rfl, .inr rfl, reservedBlocksStore_settled ui t, discardGranularityStore_settled ui t,
    .inr rfl, .inr rfl, gcUrgentStore_settled t, gcIdleStore_settled t, .inl rfl, .inl rfl,
    rangeStore_settled _ _ _ t, resetStore_settled _ t, resetStore_settled _ t,
    rangeStore_settled _ _ _ t, rangeStore_settled _ _ _ t, gcSegmentModeStore_settled t, .inr rfl,
    .inl rfl, rangeStore_settled _ _ _ t, rangeStore_settled _ _ _ t, rangeStore_settled _ _ _ t,
    resetStore_settled _ t, resetStore_settled _ t, resetStore_settled _ t, .inl rfl]

theorem sbiStore_settled (e : StoreEnv) {a : F3fsAttr} (hn : a.name ≠ "extension_list")
    (hc : a.name ≠ "ckpt_thread_ioprio") (buf : List Char) :
    ∀ r, sbiStore k e a buf count s = some r → Settled count s r := by
  unfold sbiStore
  split
  · rintro _ ⟨⟩; exact .inr rfl
  · simp only [hn, hc, if_false]
    split_ifs
    · rintro _ ⟨⟩; exact .inr rfl
    · exact storeValue_settled e a _ _

theorem f3fsSbiStore_settled (e : StoreEnv) {a : F3fsAttr} (hn : a.name ≠ "extension_list")
    (hc : a.name ≠ "ckpt_thread_ioprio") (buf : List Char) :
    ∀ r, f3fsSbiStore k e a buf count s = some r → Settled count s r := by
  unfold f3fsSbiStore
  split_ifs
  · rintro _ ⟨⟩; exact .inr rfl
  · exact sbiStore_settled e hn hc buf

end

/-- **A failed store changes nothing.**  On every attribute but `extension_list` and
`ckpt_thread_ioprio`, whatever the instance, the buffer and the helpers outside sysfs.c, a store
that returns a negative error leaves the instance as it was. -/
theorem f3fsSbiStore_error_unchanged (k : Consts) (e : StoreEnv) (a : F3fsAttr) (buf : List Char)
    (count : Nat) (s : Sbi) (hn : a.name ≠ "extension_list") (hc : a.name ≠ "ckpt_thread_ioprio")
    (r : Int × Sbi) (h : f3fsSbiStore k e a buf count s = some r) (hr : r.1 < 0) : r.2 = s :=
  (f3fsSbiStore_settled e hn hc buf r h).eq_of_neg hr

theorem f3fsSbiStore_error_unchanged_urgent :
    (rwAttr .f3fsSbi "f3fs_sb_info" "gc_urgent" "gc_mode").name ≠ "extension_list" ∧
      (rwAttr .f3fsSbi "f3fs_sb_info" "gc_urgent" "gc_mode").name ≠ "ckpt_thread_ioprio" ∧
      f3fsSbiStore mainlineConsts
          ⟨true, fun _ => (0, 9), fun _ => (0, 0), fun x _ _ _ => (0, x), 0, id, fun _ => 0⟩
          (rwAttr .f3fsSbi "f3fs_sb_info" "gc_urgent" "gc_mode") "9".toList 1 Sbi.zero =
        some (-einval, Sbi.zero) ∧
      (-einval, Sbi.zero).1 < 0 ∧ (-einval, Sbi.zero).2 = Sbi.zero :=
  have hn := (by decide : (rwAttr .f3fsSbi "f3fs_sb_info" "gc_urgent" "gc_mode").name ≠
    "extension_list")
  have hc := (by decide : (rwAttr .f3fsSbi "f3fs_sb_info" "gc_urgent" "gc_mode").name ≠
    "ckpt_thread_ioprio")
  have h := (rfl : f3fsSbiStore mainlineConsts
    ⟨true, fun _ => (0, 9), fun _ => (0, 0), fun x _ _ _ => (0, x), 0, id, fun _ => 0⟩
    (rwAttr .f3fsSbi "f3fs_sb_info" "gc_urgent" "gc_mode") "9".toList 1 Sbi.zero =
      some (-einval, Sbi.zero))
  have hr := (by decide : (-einval, Sbi.zero).1 < 0)
  ⟨hn, hc, h, hr,
    f3fsSbiStore_error_unchanged mainlineConsts _ _ "9".toList 1 Sbi.zero hn hc _ h hr⟩

/-- **How `ckpt_thread_ioprio` fails.**  Whatever the instance, the buffer and the helpers
outside sysfs.c, a `ckpt_thread_ioprio` store that returns a negative error either leaves the
instance as it was, or it is the one failure after the write: `MERGE_CHECKPOINT` is set, the
buffer names a class (`rt,` or `be,`) and a level in range, `cprc->ckpt_thread_ioprio` holds the
new priority and the error is the one `set_task_ioprio` returned for it. -/
theorem ckptThreadIoprioStore_error_written (k : Consts) (e : StoreEnv) (buf : List Char)
    (count : Nat) (s : Sbi) (r : Int × Sbi)
    (h : f3fsSbiStore k e
      (rwAttr .cprcInfo "ckpt_req_control" "ckpt_thread_ioprio" "ckpt_thread_ioprio") buf count s =
        some r) (hr : r.1 < 0) :
    r.2 = s ∨ s.mergeCheckpoint = true ∧
      ∃ cls d, ((strim buf).take 3 = "rt,".toList ∧ cls = k.ioprioClassRt ∨
          (strim buf).take 3 = "be,".toList ∧ cls = k.ioprioClassBe) ∧
        e.kstrtol ((strim buf).drop 3) = (0, d) ∧ 0 ≤ d ∧ d < k.ioprioNrLevels ∧
        r = (e.setTaskIoprio (k.ioprioPrioValue cls d.toNat),
          s.set ckptThreadIoprioLoc (k.ioprioPrioValue cls d.toNat)) := by
  have hs : ckptThreadIoprioStore k e buf count s = r := by
    simpa [f3fsSbiStore, sbiStore, structPtr, rwAttr] using h
  rcases ckptThreadIoprioStore_cases k e buf count s with hu | ⟨cls, d, hcls, hd, hlo, hhi, heq⟩
  · exact .inl (hs ▸ hu)
  rw [hs] at heq
  subst heq
  split_ifs at hr ⊢ with hset
  · exact .inr ⟨hset.1, cls, d, hcls, hd, hlo, hhi, rfl⟩
  · omega

theorem ckptThreadIoprioStore_error_written_be :
    f3fsSbiStore mainlineConsts
        ⟨true, fun _ => (0, 0), fun _ => (0, 7), fun x _ _ _ => (0, x), 0, id, fun _ => -3⟩
        (rwAttr .cprcInfo "ckpt_req_control" "ckpt_thread_ioprio" "ckpt_thread_ioprio")
        "be,7".toList 4 Sbi.zero =
      some (-3, Sbi.zero.set ckptThreadIoprioLoc (2 * 2 ^ 13 + 7)) ∧ (-3 : Int) < 0 ∧
    (((-3, Sbi.zero.set ckptThreadIoprioLoc (2 * 2 ^ 13 + 7)) : Int × Sbi).2 = Sbi.zero ∨
      Sbi.zero.mergeCheckpoint = true ∧
      ∃ cls d, ((strim "be,7".toList).take 3 = "rt,".toList ∧ cls = mainlineConsts.ioprioClassRt ∨
          (strim "be,7".toList).take 3 = "be,".toList ∧ cls = mainlineConsts.ioprioClassBe) ∧
        (fun _ => ((0 : Int), (7 : Int))) ((strim "be,7".toList).drop 3) = (0, d) ∧ 0 ≤ d ∧
        d < mainlineConsts.ioprioNrLevels ∧
        ((-3, Sbi.zero.set ckptThreadIoprioLoc (2 * 2 ^ 13 + 7)) : Int × Sbi) =
          ((fun _ => (-3 : Int)) (mainlineConsts.ioprioPrioValue cls d.toNat),
            Sbi.zero.set ckptThreadIoprioLoc (mainlineConsts.ioprioPrioValue cls d.toNat))) :=
  have h := (rfl : f3fsSbiStore mainlineConsts
    ⟨true, fun _ => (0, 0), fun _ => (0, 7), fun x _ _ _ => (0, x), 0, id, fun _ => -3⟩
    (rwAttr .cprcInfo "ckpt_req_control" "ckpt_thread_ioprio" "ckpt_thread_ioprio")
    "be,7".toList 4 Sbi.zero = some (-3, Sbi.zero.set ckptThreadIoprioLoc (2 * 2 ^ 13 + 7)))
  have hr : (-3 : Int) < 0 := by decide
  ⟨h, hr, ckptThreadIoprioStore_error_written mainlineConsts _ _ 4 Sbi.zero _ h hr⟩

/-- The store `rt,4` with `set_task_ioprio` failing with `-EPERM`: it returns `-1`, and the
priority has gone from 0 to `IOPRIO_PRIO_VALUE(IOPRIO_CLASS_RT, 4)`. -/
theorem ckptThreadIoprio_store_fails_written :
    ∃ r, f3fsSbiStore mainlineConsts
        ⟨true, fun _ => (0, 0), fun _ => (0, 4), fun x _ _ _ => (0, x), 0, id, fun _ => -1⟩
        (rwAttr .cprcInfo "ckpt_req_control" "ckpt_thread_ioprio" "ckpt_thread_ioprio")
        "rt,4".toList 4 Sbi.zero = some r ∧
      r.1 = -1 ∧ Sbi.zero.mem ckptThreadIoprioLoc = 0 ∧ r.2.mem ckptThreadIoprioLoc = 8196 :=
  ⟨_, rfl, rfl, rfl, rfl⟩

end F3fs
