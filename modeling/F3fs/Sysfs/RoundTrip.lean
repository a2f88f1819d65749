import F3fs.Sysfs.Store

/-!
# What a show reads after a store

Most read-write attributes are plain: `__sbi_store` parses the buffer with `kstrtoul`, checks
nothing of its own (or only a range, for `migration_granularity` and the fault-injection
attributes) and writes the field through `*ui = (unsigned int)t` (line 653), and
`f3fs_sbi_show` prints that field with `%u`.  For them a store that succeeds is read back by the
show as the parsed value modulo `2 ^ 32`.

* `namedAttrs`                 the names `__sbi_store` and `f3fs_sbi_show` test before their
                               generic paths;
* `f3fsSbiStore_show_parsed`   the round trip on every other attribute;
* `ckptThreadIoprio_show_stored`   the round trip of `ckpt_thread_ioprio`, whose store parses a
                               class and a level and whose show prints them back.
-/

namespace F3fs

/-- The names `__sbi_store` and `f3fs_sbi_show` test before their generic paths (but
`migration_granularity`, whose store goes on to the generic write). -/
def namedAttrs : List String :=
  ["extension_list", "ckpt_thread_ioprio", "discard_granularity", "trim_sections", "gc_urgent",
    "gc_idle", "gc_urgent_high_remaining", "iostat_enable", "iostat_period_ms",
    "compr_written_block", "compr_saved_block", "compr_new_inode", "atgc_candidate_ratio",
    "atgc_age_weight", "gc_segment_mode", "gc_reclaimed_segments", "seq_file_ra_mul",
    "max_fragment_chunk", "max_fragment_hole", "current_atomic_write", "peak_atomic_write",
    "committed_atomic_block", "revoked_atomic_block"]

section
variable {k : Consts} {e : StoreEnv} {a : F3fsAttr} {s s' : Sbi} {count : Nat}

theorem f3fsSbiStore_plain (hn : a.name ∉ namedAttrs) (hrb : a.structType ≠ .reservedBlocks)
    {buf : List Char} (h : f3fsSbiStore k e a buf count s = some ((count : Int), s')) :
    ∃ obj, structPtr s a.structType = some obj ∧
      s' = s.set ⟨obj, a.structName, a.elname, 0⟩ ((e.kstrtoul (skipSpaces buf)).2 % 2 ^ 32) := by
  simp only [namedAttrs, List.mem_cons, List.mem_singleton, not_or, List.not_mem_nil,
    not_false_eq_true, and_true] at hn
  have herr (x : Int) (hx : x < 0) {s₀ : Sbi} (h : some (x, s₀) = some ((count : Int), s')) :
      False := by
    have := congrArg Prod.fst (Option.some.inj h); simp only at this; omega
  obtain ⟨hx, hc, hn⟩ := hn
  unfold f3fsSbiStore at h
  split_ifs at h with hl
  · exact (herr (-eagain) (by decide) h).elim
  unfold sbiStore at h
  rcases hobj : structPtr s a.structType with _ | obj
  · rw [hobj] at h; exact (herr (-einval) (by decide) h).elim
  rw [hobj] at h
  simp only [hx, hc, if_false] at h
  split_ifs at h with hp
  · exact (herr _ hp h).elim
  unfold storeValue at h
  simp only [hn, hrb, false_and, or_false, if_false] at h
  split_ifs at h
  · exact (herr (-einval) (by decide) h).elim
  · exact (herr (-einval) (by decide) h).elim
  · exact (herr (-einval) (by decide) h).elim
  · exact ⟨obj, rfl, (congrArg Prod.snd (Option.some.inj h)).symm⟩

end

/-- **Store, then show, on a plain attribute.**  On every attribute whose name neither path
tests (but `migration_granularity`) and whose type is not `RESERVED_BLOCKS`, a store that returns
the byte count is read back by `f3fs_sbi_show` as the value `kstrtoul` parsed, modulo `2 ^ 32`. -/
theorem f3fsSbiStore_show_parsed (k : Consts) (e : StoreEnv) (a : F3fsAttr) (buf : List Char)
    (count : Nat) (s s' : Sbi) (hn : a.name ∉ namedAttrs) (hrb : a.structType ≠ .reservedBlocks)
    (h : f3fsSbiStore k e a buf count s = some ((count : Int), s')) :
    f3fsSbiShow k a s' =
      some (.ok (toString ((e.kstrtoul (skipSpaces buf)).2 % 2 ^ 32) ++ "\n")) := by
  obtain ⟨obj, hobj, rfl⟩ := f3fsSbiStore_plain hn hrb h
  simp only [namedAttrs, List.mem_cons, List.mem_singleton, not_or, List.not_mem_nil,
    not_false_eq_true, and_true] at hn
  simp [f3fsSbiShow, hobj, hn, sbiCounterNames]

theorem f3fsSbiStore_show_parsed_dirLevel :
    f3fsSbiShow mainlineConsts (rwAttr .f3fsSbi "f3fs_sb_info" "dir_level" "dir_level")
        (Sbi.zero.set (sbiLoc "dir_level") 3) = some (.ok ("3" ++ "\n")) :=
  f3fsSbiStore_show_parsed mainlineConsts
    ⟨true, fun _ => (0, 3), fun _ => (0, 0), fun x _ _ _ => (0, x), 0, id, fun _ => 0⟩ _
    "3".toList 1 Sbi.zero _ (by decide) (by decide) rfl

theorem ckptThreadIoprioStore_count {k : Consts} {e : StoreEnv} {buf : List Char} {count : Nat}
    {s s' : Sbi} (hk : (e.kstrtol ((strim buf).drop 3)).1 ≤ 0)
    (h : ckptThreadIoprioStore k e buf count s = ((count : Int), s')) :
    ∃ cls, ((strim buf).take 3 = "rt,".toList ∧ cls = k.ioprioClassRt ∨
        (strim buf).take 3 = "be,".toList ∧ cls = k.ioprioClassBe) ∧
      (e.kstrtol ((strim buf).drop 3)).2.toNat < k.ioprioNrLevels ∧
      s' = s.set ckptThreadIoprioLoc (k.ioprioPrioValue cls (e.kstrtol ((strim buf).drop 3)).2.toNat) := by
  rcases hr : e.kstrtol ((strim buf).drop 3) with ⟨err, d⟩
  simp only [hr] at hk
  simp only [ckptThreadIoprioStore, hr] at h
  split at h
  · simp only [einval, Prod.mk.injEq] at h; omega
  rename_i cls hcls
  obtain ⟨hd, rfl⟩ : d.toNat < k.ioprioNrLevels ∧
      s' = s.set ckptThreadIoprioLoc (k.ioprioPrioValue cls d.toNat) := by
    split_ifs at h <;> simp only [einval, Prod.mk.injEq] at h <;>
      first | omega | exact ⟨by omega, h.2.symm⟩
  refine ⟨cls, ?_, hd, rfl⟩
  split_ifs at hcls with h₁ h₂ <;> cases hcls
  · exact .inl ⟨h₁, rfl⟩
  · exact .inr ⟨h₂, rfl⟩

/-- **Store, then show, on `ckpt_thread_ioprio`.**  Where `IOPRIO_PRIO_CLASS` and
`IOPRIO_PRIO_DATA` take back `IOPRIO_PRIO_VALUE` for every level below `IOPRIO_NR_LEVELS`, the two
classes differ and `kstrtol` returns 0 or an error: a store that returns the byte count is read
back by `f3fs_sbi_show` as the class prefix of the buffer (`rt,` or `be,`) and the level parsed. -/
theorem ckptThreadIoprio_show_stored (k : Consts) (e : StoreEnv) (buf : List Char) (count : Nat)
    (s s' : Sbi) (hv : ∀ c d, d < k.ioprioNrLevels →
      k.ioprioPrioClass (k.ioprioPrioValue c d) = c ∧ k.ioprioPrioData (k.ioprioPrioValue c d) = d)
    (hrb : k.ioprioClassRt ≠ k.ioprioClassBe) (hk : (e.kstrtol ((strim buf).drop 3)).1 ≤ 0)
    (h : f3fsSbiStore k e
      (rwAttr .cprcInfo "ckpt_req_control" "ckpt_thread_ioprio" "ckpt_thread_ioprio") buf count s =
        some ((count : Int), s')) :
    f3fsSbiShow k (rwAttr .cprcInfo "ckpt_req_control" "ckpt_thread_ioprio" "ckpt_thread_ioprio")
        s' = some (.ok (String.mk ((strim buf).take 3) ++
          toString (e.kstrtol ((strim buf).drop 3)).2.toNat ++ "\n")) := by
  obtain ⟨cls, hcls, hd, rfl⟩ := ckptThreadIoprioStore_count hk
    (by simpa [f3fsSbiStore, sbiStore, rwAttr, structPtr] using h)
  obtain ⟨hc, hdata⟩ := hv cls _ hd
  rcases hcls with ⟨hp, rfl⟩ | ⟨hp, rfl⟩ <;>
    simp [f3fsSbiShow, structPtr, rwAttr, ckptThreadIoprioShow, hc, hdata, hp, hrb.symm,
      String.append_assoc]

theorem ckptThreadIoprio_show_stored_be :
    f3fsSbiShow mainlineConsts
        (rwAttr .cprcInfo "ckpt_req_control" "ckpt_thread_ioprio" "ckpt_thread_ioprio")
        (Sbi.zero.set ckptThreadIoprioLoc (2 * 2 ^ 13 + 7)) = some (.ok ("be," ++ "7" ++ "\n")) :=
  ckptThreadIoprio_show_stored mainlineConsts
    ⟨true, fun _ => (0, 0), fun _ => (0, 7), fun x _ _ _ => (0, x), 0, id, fun _ => 0⟩
    "be,7".toList 4 Sbi.zero _ (fun c d hd => by simp only [mainlineConsts] at hd ⊢; omega)
    (by decide) (by decide) rfl

end F3fs
