import F3fs.Sysfs.Attr

/-!
# `__sbi_store`, `f3fs_sbi_store` and `f3fs_sbi_show`

sysfs.c, lines 275-675.  A store parses the buffer, checks it and writes the field the
attribute names, or one of the fields its own branch names; it returns the byte count or a
negative error.  Out-of-bounds array accesses are undefined: the store and the show are
`none` there.

* `StoreEnv`         what a store meets outside sysfs.c: the `s_umount` trylock, the parsers,
                     and the helpers of the extension-list, iostat and ioprio paths;
* `rangeStore`, `resetStore`   the two families of checked writes;
* `storeValue`       lines 453-655, after the parse;
* `sbiStore`         `__sbi_store`;  `f3fsSbiStore`  `f3fs_sbi_store`;
* `f3fsSbiShow`      `f3fs_sbi_show`, with `gc_mode_names`.

The iostat counters and the extension table are parts of `Sbi` of their own: the helpers
declared outside sysfs.c that reset or update them (`f3fs_reset_iostat`,
`f3fs_update_extension_list`) act on those parts only.
-/

namespace F3fs

/-- `isspace`: the kernel's ctype table counts the bytes 9-13, 32 and 0xA0 (a byte `b` of the
buffer is the character `Char.ofNat b`). -/
def cIsSpace (c : Char) : Bool :=
  c = ' ' || c = '\t' || c = '\n' || c = Char.ofNat 11 || c = Char.ofNat 12 || c = '\r' ||
    c = Char.ofNat 160

/-- `skip_spaces` -/
def skipSpaces (buf : List Char) : List Char := buf.dropWhile cIsSpace

/-- `strim`: white space cut at both ends. -/
def strim (buf : List Char) : List Char :=
  ((buf.dropWhile cIsSpace).reverse.dropWhile cIsSpace).reverse

/-- What a store meets outside sysfs.c. -/
structure StoreEnv where
  /-- `down_read_trylock(&sbi->sb->s_umount)` -/
  sUmountTrylock : Bool
  /-- `kstrtoul(buf, 0, &t)`: what it returns, and `t` -/
  kstrtoul : List Char → Int × Nat
  /-- `kstrtol(buf, 10, &data)`: what it returns, and `data` -/
  kstrtol : List Char → Int × Int
  /-- `f3fs_update_extension_list(sbi, name, hot, set)` on the extension table -/
  updateExtensionList : ExtTable → List Char → Bool → Bool → Int × ExtTable
  /-- `f3fs_commit_super(sbi, false)` -/
  commitSuper : Int
  /-- `f3fs_reset_iostat(sbi)` on the iostat counters -/
  resetIostat : (Nat → Nat) → Nat → Nat
  /-- `set_task_ioprio(cprc->f3fs_issue_ckpt, ioprio)` -/
  setTaskIoprio : Nat → Int

/-- `cprc->ckpt_thread_ioprio` -/
def ckptThreadIoprioLoc : Loc := ⟨.cprc, "ckpt_req_control", "ckpt_thread_ioprio", 0⟩

/-- `sbi->gc_thread->gc_wake` -/
def gcWakeLoc : Loc := ⟨.gcThread, "f3fs_gc_kthread", "gc_wake", 0⟩

/-- `sbi->am.atgc_enabled` -/
def atgcEnabledLoc : Loc := ⟨.am, "atgc_management", "atgc_enabled", 0⟩

/-- A value stored through an `unsigned int` (or `block_t`). -/
def u32 (x : Int) : Nat := (x % 2 ^ 32).toNat

section
variable (k : Consts) (e : StoreEnv)

/-- Lines 380-412: `extension_list`. -/
def extensionListStore (buf : List Char) (count : Nat) (s : Sbi) : Int × Sbi :=
  let name := strim buf
  let hot : Option Bool :=
    if name.take 3 = "[h]".toList then some true
    else if name.take 3 = "[c]".toList then some false else none
  match hot with
  | none => (-einval, s)
  | some hot =>
    let set := (name.drop 3).head? != some '!'
    let name := if set then name.drop 3 else name.drop 4
    if name.length = 0 ∨ k.extensionLen ≤ name.length then (-einval, s)
    else
      let r := e.updateExtensionList s.ext name hot set
      if r.1 ≠ 0 then (r.1, { s with ext := r.2 })
      else if e.commitSuper ≠ 0 then
        (e.commitSuper, { s with ext := (e.updateExtensionList r.2 name hot !set).2 })
      else (count, { s with ext := r.2 })

@[simp] theorem extensionListStore_mem (buf : List Char) (count : Nat) (s : Sbi) :
    (extensionListStore k e buf count s).2.mem = s.mem := by
  unfold extensionListStore
  dsimp only
  repeat' split
  all_goals rfl

/-- Lines 414-444: `ckpt_thread_ioprio`. -/
def ckptThreadIoprioStore (buf : List Char) (count : Nat) (s : Sbi) : Int × Sbi :=
  let name := strim buf
  let cls : Option Nat :=
    if name.take 3 = "rt,".toList then some k.ioprioClassRt
    else if name.take 3 = "be,".toList then some k.ioprioClassBe else none
  match cls with
  | none => (-einval, s)
  | some cls =>
    let r := e.kstrtol (name.drop 3)
    if r.1 ≠ 0 then (r.1, s)
    else if (k.ioprioNrLevels : Int) ≤ r.2 ∨ r.2 < 0 then (-einval, s)
    else
      let v := k.ioprioPrioValue cls r.2.toNat
      let s := s.set ckptThreadIoprioLoc v
      if s.mergeCheckpoint ∧ e.setTaskIoprio v ≠ 0 then (e.setTaskIoprio v, s) else (count, s)

theorem ckptThreadIoprioStore_cases (buf : List Char) (count : Nat) (s : Sbi) :
    (ckptThreadIoprioStore k e buf count s).2 = s ∨
    ∃ cls d, ((strim buf).take 3 = "rt,".toList ∧ cls = k.ioprioClassRt ∨
        (strim buf).take 3 = "be,".toList ∧ cls = k.ioprioClassBe) ∧
      e.kstrtol ((strim buf).drop 3) = (0, d) ∧ 0 ≤ d ∧ d < k.ioprioNrLevels ∧
      ckptThreadIoprioStore k e buf count s =
        (if s.mergeCheckpoint ∧ e.setTaskIoprio (k.ioprioPrioValue cls d.toNat) ≠ 0
          then e.setTaskIoprio (k.ioprioPrioValue cls d.toNat) else count,
          s.set ckptThreadIoprioLoc (k.ioprioPrioValue cls d.toNat)) := by
  generalize hres : ckptThreadIoprioStore k e buf count s = res
  simp only [ckptThreadIoprioStore] at hres
  split at hres
  · exact .inl (hres ▸ rfl)
  rename_i cls hcls
  rcases hr : e.kstrtol ((strim buf).drop 3) with ⟨err, d⟩
  simp only [hr, Sbi.set_mergeCheckpoint] at hres
  subst hres
  by_cases hok : err = 0 ∧ 0 ≤ d ∧ d < k.ioprioNrLevels
  · obtain ⟨rfl, hlo, hhi⟩ := hok
    refine .inr ⟨cls, d, ?_, rfl, hlo, hhi, ?_⟩
    · split_ifs at hcls with h₁ h₂ <;> cases hcls
      exacts [.inl ⟨h₁, rfl⟩, .inr ⟨h₂, rfl⟩]
    · split_ifs <;> first | rfl | omega
  · left
    split_ifs <;> first | rfl | omega

/-- Lines 460-473: `RESERVED_BLOCKS`. -/
def reservedBlocksStore (ui : Loc) (t count : Nat) (s : Sbi) : Int × Sbi :=
  if u32 ((s.mem (sbiLoc "user_block_count") : Int) -
      s.mem ⟨.sbi, "f3fs_mount_info", "root_reserved_blocks", 0⟩ -
      s.mem (sbiLoc "blocks_per_seg") *
        s.mem ⟨.smInfo, "f3fs_sm_info", "additional_reserved_segments", 0⟩) < t then (-einval, s)
  else
    let s := s.set ui (t % 2 ^ 32)
    (count, s.set (sbiLoc "current_reserved_blocks")
      (min (s.mem (sbiLoc "reserved_blocks"))
        (u32 ((s.mem (sbiLoc "user_block_count") : Int) -
          s.mem (sbiLoc "total_valid_block_count")))))

/-- Lines 475-484: `discard_granularity`. -/
def discardGranularityStore (ui : Loc) (t count : Nat) (s : Sbi) : Int × Sbi :=
  if t = 0 ∨ k.maxPlistNum < t then (-einval, s)
  else if s.blockUnitDiscard = false then (-einval, s)
  else if t = s.mem ui then (count, s)
  else (count, s.set ui (t % 2 ^ 32))

/-- `gc_wake = 1` on the GC thread, if there is one (the wake-ups change nothing here). -/
def wakeGcThread (s : Sbi) : Sbi := if s.gcThread then s.set gcWakeLoc 1 else s

/-- Lines 494-516: `gc_urgent`. -/
def gcUrgentStore (t count : Nat) (s : Sbi) : Int × Sbi :=
  if t = 0 then (count, s.set gcModeLoc k.gc.normal)
  else if t = 1 then (count, wakeGcThread (s.set gcModeLoc k.gc.urgentHigh))
  else if t = 2 then (count, s.set gcModeLoc k.gc.urgentLow)
  else if t = 3 then (count, wakeGcThread (s.set gcModeLoc k.gc.urgentMid))
  else (-einval, s)

/-- Lines 517-529: `gc_idle`. -/
def gcIdleStore (t count : Nat) (s : Sbi) : Int × Sbi :=
  if t = k.gc.idleCb then (count, s.set gcModeLoc k.gc.idleCb)
  else if t = k.gc.idleGreedy then (count, s.set gcModeLoc k.gc.idleGreedy)
  else if t = k.gc.idleAt then
    if s.mem atgcEnabledLoc = 0 then (-einval, s) else (count, s.set gcModeLoc k.gc.idleAt)
  else (count, s.set gcModeLoc k.gc.normal)

/-- Lines 531-538: `gc_urgent_high_remaining`. -/
def gcUrgentHighRemainingStore (t count : Nat) (s : Sbi) : Int × Sbi :=
  (count, (s.set (sbiLoc "gc_urgent_high_limited") (if t = 0 then 0 else 1)).set
    (sbiLoc "gc_urgent_high_remaining") (t % 2 ^ 32))

/-- Lines 541-546: `iostat_enable`. -/
def iostatEnableStore (t count : Nat) (s : Sbi) : Int × Sbi :=
  let s := s.set (sbiLoc "iostat_enable") (if t = 0 then 0 else 1)
  (count, if t = 0 then { s with iostat := e.resetIostat s.iostat } else s)

/-- A checked write: `t` in `[lo, hi]` is stored through an `unsigned int`, anything else is
`-EINVAL` (`iostat_period_ms`, `atgc_candidate_ratio`, `atgc_age_weight`, `seq_file_ra_mul`,
`max_fragment_chunk`, `max_fragment_hole`). -/
def rangeStore (lo hi : Nat) (l : Loc) (t count : Nat) (s : Sbi) : Int × Sbi :=
  if lo ≤ t ∧ t ≤ hi then (count, s.set l (t % 2 ^ 32)) else (-einval, s)

/-- A reset: `0` clears the cells, anything else is `-EINVAL` (the compression and atomic-write
counters). -/
def resetStore (ls : List Loc) (t count : Nat) (s : Sbi) : Int × Sbi :=
  if t ≠ 0 then (-einval, s) else (count, ls.foldl (fun s l => s.set l 0) s)

/-- Lines 586-592: `gc_segment_mode`. -/
def gcSegmentModeStore (t count : Nat) (s : Sbi) : Int × Sbi :=
  if t < k.gc.max then (count, s.set gcSegmentModeLoc t) else (-einval, s)

/-- Lines 594-599: `gc_reclaimed_segments`; `gc_reclaimed_segs` has `MAX_GC_MODE` entries. -/
def gcReclaimedSegmentsStore (t count : Nat) (s : Sbi) : Option (Int × Sbi) :=
  if t ≠ 0 then some (-einval, s)
  else if s.mem gcSegmentModeLoc < k.gc.max then
    some (count, s.set (gcReclaimedSegsLoc (s.mem gcSegmentModeLoc)) 0)
  else none

/-- Lines 453-655: the value `t` parsed for the attribute `a`, whose cell is `ui`. -/
def storeValue (a : F3fsAttr) (ui : Loc) (t count : Nat) (s : Sbi) : Option (Int × Sbi) :=
  if a.structType = .faultInfoType ∧ 2 ^ k.faultMax ≤ t then some (-einval, s)
  else if a.structType = .faultInfoRate ∧ uintMax ≤ t then some (-einval, s)
  else if a.structType = .reservedBlocks then some (reservedBlocksStore ui t count s)
  else if a.name = "discard_granularity" then some (discardGranularityStore k ui t count s)
  else if a.name = "migration_granularity" ∧ (t = 0 ∨ s.mem (sbiLoc "segs_per_sec") < t) then
    some (-einval, s)
  else if a.name = "trim_sections" then some (-einval, s)
  else if a.name = "gc_urgent" then some (gcUrgentStore k t count s)
  else if a.name = "gc_idle" then some (gcIdleStore k t count s)
  else if a.name = "gc_urgent_high_remaining" then some (gcUrgentHighRemainingStore t count s)
  else if a.name = "iostat_enable" then some (iostatEnableStore e t count s)
  else if a.name = "iostat_period_ms" then
    some (rangeStore k.minIostatPeriodMs k.maxIostatPeriodMs (sbiLoc "iostat_period_ms") t count s)
  else if a.name = "compr_written_block" ∨ a.name = "compr_saved_block" then
    some (resetStore [sbiLoc "compr_written_block", sbiLoc "compr_saved_block"] t count s)
  else if a.name = "compr_new_inode" then some (resetStore [sbiLoc "compr_new_inode"] t count s)
  else if a.name = "atgc_candidate_ratio" then
    some (rangeStore 0 100 ⟨.am, "atgc_management", "candidate_ratio", 0⟩ t count s)
  else if a.name = "atgc_age_weight" then
    some (rangeStore 0 100 ⟨.am, "atgc_management", "age_weight", 0⟩ t count s)
  else if a.name = "gc_segment_mode" then some (gcSegmentModeStore k t count s)
  else if a.name = "gc_reclaimed_segments" then gcReclaimedSegmentsStore k t count s
  else if a.name = "seq_file_ra_mul" then
    some (rangeStore k.minRaMul k.maxRaMul (sbiLoc "seq_file_ra_mul") t count s)
  else if a.name = "max_fragment_chunk" then
    some (rangeStore k.minFragmentSize k.maxFragmentSize (sbiLoc "max_fragment_chunk") t count s)
  else if a.name = "max_fragment_hole" then
    some (rangeStore k.minFragmentSize k.maxFragmentSize (sbiLoc "max_fragment_hole") t count s)
  else if a.name = "peak_atomic_write" then
    some (resetStore [sbiLoc "peak_atomic_write"] t count s)
  else if a.name = "committed_atomic_block" then
    some (resetStore [sbiLoc "committed_atomic_block"] t count s)
  else if a.name = "revoked_atomic_block" then
    some (resetStore [sbiLoc "revoked_atomic_block"] t count s)
  else some (count, s.set ui (t % 2 ^ 32))

/-- `__sbi_store` (lines 368-656). -/
def sbiStore (a : F3fsAttr) (buf : List Char) (count : Nat) (s : Sbi) : Option (Int × Sbi) :=
  match structPtr s a.structType with
  | none => some (-einval, s)
  | some obj =>
    if a.name = "extension_list" then some (extensionListStore k e buf count s)
    else if a.name = "ckpt_thread_ioprio" then some (ckptThreadIoprioStore k e buf count s)
    else
      let r := e.kstrtoul (skipSpaces buf)
      if r.1 < 0 then some (r.1, s)
      else storeValue k e a ⟨obj, a.structName, a.elname, 0⟩ r.2 count s

/-- `f3fs_sbi_store` (lines 658-675): the GC attributes need `s_umount`. -/
def f3fsSbiStore (a : F3fsAttr) (buf : List Char) (count : Nat) (s : Sbi) :
    Option (Int × Sbi) :=
  if (a.name = "gc_urgent" ∨ a.structType = .gcThread) ∧ e.sUmountTrylock = false then
    some (-eagain, s)
  else sbiStore k e a buf count s

/-- A sequence of `f3fs_sbi_store` calls, each with what it meets outside sysfs.c, its attribute,
buffer and count; `none` if one of them is undefined. -/
def storeRun : Sbi → List (StoreEnv × F3fsAttr × List Char × Nat) → Option Sbi
  | s, [] => some s
  | s, (env, a, buf, count) :: cs =>
    (f3fsSbiStore k env a buf count s).bind fun r => storeRun r.2 cs

/-- `gc_mode_names` (lines 44-52). -/
def gcModeNames : List String :=
  ["GC_NORMAL", "GC_IDLE_CB", "GC_IDLE_GREEDY", "GC_IDLE_AT", "GC_URGENT_HIGH", "GC_URGENT_LOW",
    "GC_URGENT_MID"]

/-- `gc_mode_names[i]`: the array has `MAX_GC_MODE` entries, and those past the initializers
are `NULL`, printed `(null)`; `none` out of bounds. -/
def gcModeName (i : Nat) : Option String :=
  if i < k.gc.max then some (gcModeNames.getD i "(null)") else none

/-- Lines 285-304: the cold extensions, then the hot ones, cut by `scnprintf` to
`PAGE_SIZE - 1` bytes; `none` past the end of the array. -/
def extensionListShow (x : ExtTable) : Option String := do
  let cold ← (List.range x.coldCount).mapM fun i => x.list[i]?
  let hot ← (List.range x.hotCount).mapM fun i => x.list[x.coldCount + i]?
  let text := "cold file extension:\n" ++ String.join (cold.map (· ++ "\n")) ++
    "hot file extension:\n" ++ String.join (hot.map (· ++ "\n"))
  pure ⟨text.toList.take (k.pageSize - 1)⟩

/-- Lines 306-321: `ckpt_thread_ioprio` as `rt,` or `be,` and its level. -/
def ckptThreadIoprioShow (v : Nat) : Except Int String :=
  let data := toString (k.ioprioPrioData v) ++ "\n"
  if k.ioprioPrioClass v = k.ioprioClassRt then .ok ("rt," ++ data)
  else if k.ioprioPrioClass v = k.ioprioClassBe then .ok ("be," ++ data)
  else .error (-einval)

/-- The attributes whose show prints the field of `sbi` of the same name (lines 323-365). -/
def sbiCounterNames : List String :=
  ["compr_written_block", "compr_saved_block", "compr_new_inode", "current_atomic_write",
    "peak_atomic_write", "committed_atomic_block", "revoked_atomic_block"]

/-- `f3fs_sbi_show` (lines 276-369): the text, or a negative error; `none` where it reads out of
bounds. -/
def f3fsSbiShow (a : F3fsAttr) (s : Sbi) : Option (Except Int String) :=
  let line (n : Nat) : Except Int String := .ok (toString n ++ "\n")
  match structPtr s a.structType with
  | none => some (.error (-einval))
  | some obj =>
    if a.name = "extension_list" then (extensionListShow k s.ext).map .ok
    else if a.name = "ckpt_thread_ioprio" then
      some (ckptThreadIoprioShow k (s.mem ckptThreadIoprioLoc))
    else if a.name ∈ sbiCounterNames then some (line (s.mem (sbiLoc a.name)))
    else if a.name = "gc_urgent" then
      (gcModeName k (s.mem gcModeLoc)).map fun n => .ok (n ++ "\n")
    else if a.name = "gc_segment_mode" then
      (gcModeName k (s.mem gcSegmentModeLoc)).map fun n => .ok (n ++ "\n")
    else if a.name = "gc_reclaimed_segments" then
      if s.mem gcSegmentModeLoc < k.gc.max then
        some (line (s.mem (gcReclaimedSegsLoc (s.mem gcSegmentModeLoc))))
      else none
    else some (line (s.mem ⟨obj, a.structName, a.elname, 0⟩ % 2 ^ 32))

end

/-- The constants of a mainline build, for the runs on concrete inputs:
`IOPRIO_PRIO_VALUE(class, data)` is `class << 13 | data`. -/
def mainlineConsts : Consts :=
  { gc := ⟨0, 1, 2, 3, 4, 5, 6, 7, by decide⟩, maxPlistNum := 512, minIostatPeriodMs := 100,
    maxIostatPeriodMs := 5000, minRaMul := 2, maxRaMul := 256, minFragmentSize := 1,
    maxFragmentSize := 512, faultMax := 20, extensionLen := 8, ioprioClassRt := 1,
    ioprioClassBe := 2, ioprioNrLevels := 8, ioprioPrioValue := fun c d => c * 2 ^ 13 + d,
    ioprioPrioClass := fun v => v / 2 ^ 13, ioprioPrioData := fun v => v % 2 ^ 13,
    pageSize := 4096 }

/-- An instance whose numeric fields are all zero, with every object present and every option
on. -/
def Sbi.zero : Sbi := ⟨fun _ => 0, true, true, true, true, true, ⟨[], 0, 0⟩, fun _ => 0⟩

end F3fs
