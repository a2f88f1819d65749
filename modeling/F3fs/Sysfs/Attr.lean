import Mathlib.Data.List.Basic
import Mathlib.Algebra.Group.Nat.Basic
import Mathlib.Algebra.Order.Group.Int

/-!
# The sysfs attributes of an instance

sysfs.c, lines 25-93 and 779-904.  An attribute names a field by a `struct_type`, which
`__struct_ptr` turns into a pointer to one of the instance's objects, and an offset
`offsetof(struct struct_name, elname)` into it.

* `Obj`, `Loc`      the objects and their cells: a cell is named by its object, the structure
                    and element of its `offsetof`, and an index into an array element;
* `Sbi`             what the store and show paths of sysfs.c read and write;
* `Consts`          the constants and macros these paths use that are declared outside sysfs.c;
* `structPtr`       `__struct_ptr`;
* `f3fsRwAttrs`     the attributes of `f3fs_attrs` whose store is `f3fs_sbi_store`, with every
                    configuration option on.
-/

namespace F3fs

/-- The `struct_type` of an attribute (lines 26-42). -/
inductive StructType where
  | gcThread | smInfo | dccInfo | nmInfo | f3fsSbi | statInfo | faultInfoRate | faultInfoType
  | reservedBlocks | cprcInfo | atgcInfo
  deriving DecidableEq, Repr

/-- The objects `__struct_ptr` points into. -/
inductive Obj where
  /-- `*sbi->gc_thread` -/
  | gcThread
  /-- `*SM_I(sbi)` -/
  | smInfo
  /-- `*SM_I(sbi)->dcc_info` -/
  | dccInfo
  /-- `*NM_I(sbi)` -/
  | nmInfo
  /-- `*sbi` -/
  | sbi
  /-- `F3FS_OPTION(sbi).fault_info` -/
  | faultInfo
  /-- `*F3FS_STAT(sbi)` -/
  | stat
  /-- `sbi->cprc_info` -/
  | cprc
  /-- `sbi->am` -/
  | am
  deriving DecidableEq, Repr

/-- A cell: the object, the structure and element its `offsetof` names, and an index into an
array element.  Cells with different names are different fields. -/
structure Loc where
  obj : Obj
  struct : String
  elem : String
  idx : Nat
  deriving DecidableEq, Repr

/-- A cell of `struct f3fs_sb_info`. -/
def sbiLoc (elem : String) : Loc := ⟨.sbi, "f3fs_sb_info", elem, 0⟩

@[simp] theorem sbiLoc_elem (elem : String) : (sbiLoc elem).elem = elem := rfl

/-- `sbi->gc_mode` -/
def gcModeLoc : Loc := sbiLoc "gc_mode"

/-- `sbi->gc_segment_mode` -/
def gcSegmentModeLoc : Loc := sbiLoc "gc_segment_mode"

/-- `sbi->gc_reclaimed_segs[i]` -/
def gcReclaimedSegsLoc (i : Nat) : Loc := ⟨.sbi, "f3fs_sb_info", "gc_reclaimed_segs", i⟩

/-- The extension table of `sbi->raw_super`. -/
structure ExtTable where
  /-- `extension_list`, the entries of the array -/
  list : List String
  /-- `le32_to_cpu(extension_count)`: the cold extensions -/
  coldCount : Nat
  /-- `hot_ext_count` -/
  hotCount : Nat
  deriving DecidableEq, Repr

/-- What the sysfs store and show paths read and write. -/
structure Sbi where
  /-- every numeric field -/
  mem : Loc → Nat
  /-- `sbi->gc_thread != NULL` -/
  gcThread : Bool
  /-- `SM_I(sbi)->dcc_info != NULL` -/
  dccInfo : Bool
  /-- `F3FS_STAT(sbi) != NULL` -/
  statInfo : Bool
  /-- `test_opt(sbi, MERGE_CHECKPOINT)` -/
  mergeCheckpoint : Bool
  /-- `f3fs_block_unit_discard(sbi)` -/
  blockUnitDiscard : Bool
  /-- the extension table of `sbi->raw_super` -/
  ext : ExtTable
  /-- the iostat counters, which `f3fs_reset_iostat` clears -/
  iostat : Nat → Nat

/-- `sbi` with the cell `l` set to `v`. -/
def Sbi.set (s : Sbi) (l : Loc) (v : Nat) : Sbi := { s with mem := Function.update s.mem l v }

@[simp] theorem Sbi.set_mem (s : Sbi) (l : Loc) (v : Nat) :
    (s.set l v).mem = Function.update s.mem l v := rfl
@[simp] theorem Sbi.set_ext (s : Sbi) (l : Loc) (v : Nat) : (s.set l v).ext = s.ext := rfl
@[simp] theorem Sbi.set_iostat (s : Sbi) (l : Loc) (v : Nat) : (s.set l v).iostat = s.iostat := rfl
@[simp] theorem Sbi.set_mergeCheckpoint (s : Sbi) (l : Loc) (v : Nat) :
    (s.set l v).mergeCheckpoint = s.mergeCheckpoint := rfl

/-- The GC modes: the enumerators before `MAX_GC_MODE`, each below it. -/
structure GcModes where
  normal : Nat
  idleCb : Nat
  idleGreedy : Nat
  idleAt : Nat
  urgentHigh : Nat
  urgentLow : Nat
  urgentMid : Nat
  /-- `MAX_GC_MODE` -/
  max : Nat
  lt : normal < max ∧ idleCb < max ∧ idleGreedy < max ∧ idleAt < max ∧ urgentHigh < max ∧
    urgentLow < max ∧ urgentMid < max

/-- The constants and macros of the store and show paths that are declared outside sysfs.c. -/
structure Consts where
  gc : GcModes
  /-- `MAX_PLIST_NUM` -/
  maxPlistNum : Nat
  /-- `MIN_IOSTAT_PERIOD_MS`, `MAX_IOSTAT_PERIOD_MS` -/
  minIostatPeriodMs : Nat
  maxIostatPeriodMs : Nat
  /-- `MIN_RA_MUL`, `MAX_RA_MUL` -/
  minRaMul : Nat
  maxRaMul : Nat
  /-- `MIN_FRAGMENT_SIZE`, `MAX_FRAGMENT_SIZE` -/
  minFragmentSize : Nat
  maxFragmentSize : Nat
  /-- `FAULT_MAX` -/
  faultMax : Nat
  /-- `F3FS_EXTENSION_LEN` -/
  extensionLen : Nat
  /-- `IOPRIO_CLASS_RT`, `IOPRIO_CLASS_BE`, `IOPRIO_NR_LEVELS` -/
  ioprioClassRt : Nat
  ioprioClassBe : Nat
  ioprioNrLevels : Nat
  /-- `IOPRIO_PRIO_VALUE`, `IOPRIO_PRIO_CLASS`, `IOPRIO_PRIO_DATA` -/
  ioprioPrioValue : Nat → Nat → Nat
  ioprioPrioClass : Nat → Nat
  ioprioPrioData : Nat → Nat
  /-- `PAGE_SIZE` -/
  pageSize : Nat

/-- `EINVAL` -/
def einval : Int := 22

/-- `EAGAIN` -/
def eagain : Int := 11

/-- `UINT_MAX` -/
def uintMax : Nat := 2 ^ 32 - 1

/-- `__struct_ptr`: `none` for `NULL`. -/
def structPtr (s : Sbi) : StructType → Option Obj
  | .gcThread => if s.gcThread then some .gcThread else none
  | .smInfo => some .smInfo
  | .dccInfo => if s.dccInfo then some .dccInfo else none
  | .nmInfo => some .nmInfo
  | .f3fsSbi | .reservedBlocks => some .sbi
  | .faultInfoRate | .faultInfoType => some .faultInfo
  | .statInfo => if s.statInfo then some .stat else none
  | .cprcInfo => some .cprc
  | .atgcInfo => some .am

@[simp] theorem structPtr_set (s : Sbi) (l : Loc) (v : Nat) : structPtr (s.set l v) = structPtr s :=
  rfl

/-- The structure type of the object `__struct_ptr` returns for each `struct_type`. -/
def StructType.structName : StructType → String
  | .gcThread => "f3fs_gc_kthread"
  | .smInfo => "f3fs_sm_info"
  | .dccInfo => "discard_cmd_control"
  | .nmInfo => "f3fs_nm_info"
  | .f3fsSbi | .reservedBlocks => "f3fs_sb_info"
  | .statInfo => "f3fs_stat_info"
  | .faultInfoRate | .faultInfoType => "f3fs_fault_info"
  | .cprcInfo => "ckpt_req_control"
  | .atgcInfo => "atgc_management"

/-- An attribute of `f3fs_attrs` with the `f3fs_sbi_show`/`f3fs_sbi_store` pair. -/
structure F3fsAttr where
  name : String
  structType : StructType
  /-- the structure of its `offsetof` -/
  structName : String
  /-- the element of its `offsetof` -/
  elname : String
  deriving DecidableEq, Repr

/-- `F3FS_RW_ATTR(struct_type, struct_name, name, elname)` -/
def rwAttr (structType : StructType) (structName name elname : String) : F3fsAttr :=
  ⟨name, structType, structName, elname⟩

/-- The read-write attributes of `f3fs_attrs` (lines 779-904), in the order of the list. -/
def f3fsRwAttrs : List F3fsAttr :=
  [rwAttr .gcThread "f3fs_gc_kthread" "gc_urgent_sleep_time" "urgent_sleep_time",
    rwAttr .gcThread "f3fs_gc_kthread" "gc_min_sleep_time" "min_sleep_time",
    rwAttr .gcThread "f3fs_gc_kthread" "gc_max_sleep_time" "max_sleep_time",
    rwAttr .gcThread "f3fs_gc_kthread" "gc_no_gc_sleep_time" "no_gc_sleep_time",
    rwAttr .f3fsSbi "f3fs_sb_info" "gc_idle" "gc_mode",
    rwAttr .f3fsSbi "f3fs_sb_info" "gc_urgent" "gc_mode",
    rwAttr .smInfo "f3fs_sm_info" "reclaim_segments" "rec_prefree_segments",
    rwAttr .dccInfo "discard_cmd_control" "max_small_discards" "max_discards",
    rwAttr .dccInfo "discard_cmd_control" "max_discard_request" "max_discard_request",
    rwAttr .dccInfo "discard_cmd_control" "min_discard_issue_time" "min_discard_issue_time",
    rwAttr .dccInfo "discard_cmd_control" "mid_discard_issue_time" "mid_discard_issue_time",
    rwAttr .dccInfo "discard_cmd_control" "max_discard_issue_time" "max_discard_issue_time",
    rwAttr .dccInfo "discard_cmd_control" "discard_granularity" "discard_granularity",
    rwAttr .smInfo "f3fs_sm_info" "batched_trim_sections" "trim_sections",
    rwAttr .smInfo "f3fs_sm_info" "ipu_policy" "ipu_policy",
    rwAttr .smInfo "f3fs_sm_info" "min_ipu_util" "min_ipu_util",
    rwAttr .smInfo "f3fs_sm_info" "min_fsync_blocks" "min_fsync_blocks",
    rwAttr .smInfo "f3fs_sm_info" "min_seq_blocks" "min_seq_blocks",
    rwAttr .smInfo "f3fs_sm_info" "min_hot_blocks" "min_hot_blocks",
    rwAttr .smInfo "f3fs_sm_info" "min_ssr_sections" "min_ssr_sections",
    rwAttr .f3fsSbi "f3fs_sb_info" "max_victim_search" "max_victim_search",
    rwAttr .f3fsSbi "f3fs_sb_info" "migration_granularity" "migration_granularity",
    rwAttr .f3fsSbi "f3fs_sb_info" "dir_level" "dir_level",
    rwAttr .nmInfo "f3fs_nm_info" "ram_thresh" "ram_thresh",
    rwAttr .nmInfo "f3fs_nm_info" "ra_nid_pages" "ra_nid_pages",
    rwAttr .nmInfo "f3fs_nm_info" "dirty_nats_ratio" "dirty_nats_ratio",
    rwAttr .nmInfo "f3fs_nm_info" "max_roll_forward_node_blocks" "max_rf_node_blocks",
    rwAttr .f3fsSbi "f3fs_sb_info" "cp_interval" "interval_time[CP_TIME]",
    rwAttr .f3fsSbi "f3fs_sb_info" "idle_interval" "interval_time[REQ_TIME]",
    rwAttr .f3fsSbi "f3fs_sb_info" "discard_idle_interval" "interval_time[DISCARD_TIME]",
    rwAttr .f3fsSbi "f3fs_sb_info" "gc_idle_interval" "interval_time[GC_TIME]",
    rwAttr .f3fsSbi "f3fs_sb_info" "umount_discard_timeout"
      "interval_time[UMOUNT_DISCARD_TIMEOUT]",
    rwAttr .f3fsSbi "f3fs_sb_info" "iostat_enable" "iostat_enable",
    rwAttr .f3fsSbi "f3fs_sb_info" "iostat_period_ms" "iostat_period_ms",
    rwAttr .f3fsSbi "f3fs_sb_info" "readdir_ra" "readdir_ra",
    rwAttr .f3fsSbi "f3fs_sb_info" "max_io_bytes" "max_io_bytes",
    rwAttr .f3fsSbi "f3fs_sb_info" "gc_pin_file_thresh" "gc_pin_file_threshold",
    rwAttr .f3fsSbi "f3fs_super_block" "extension_list" "extension_list",
    rwAttr .faultInfoRate "f3fs_fault_info" "inject_rate" "inject_rate",
    rwAttr .faultInfoType "f3fs_fault_info" "inject_type" "inject_type",
    rwAttr .f3fsSbi "f3fs_sb_info" "data_io_flag" "data_io_flag",
    rwAttr .f3fsSbi "f3fs_sb_info" "node_io_flag" "node_io_flag",
    rwAttr .f3fsSbi "f3fs_sb_info" "gc_urgent_high_remaining" "gc_urgent_high_remaining",
    rwAttr .cprcInfo "ckpt_req_control" "ckpt_thread_ioprio" "ckpt_thread_ioprio",
    rwAttr .reservedBlocks "f3fs_sb_info" "reserved_blocks" "reserved_blocks",
    rwAttr .f3fsSbi "f3fs_sb_info" "compr_written_block" "compr_written_block",
    rwAttr .f3fsSbi "f3fs_sb_info" "compr_saved_block" "compr_saved_block",
    rwAttr .f3fsSbi "f3fs_sb_info" "compr_new_inode" "compr_new_inode",
    rwAttr .atgcInfo "atgc_management" "atgc_candidate_ratio" "candidate_ratio",
    rwAttr .atgcInfo "atgc_management" "atgc_candidate_count" "max_candidate_count",
    rwAttr .atgcInfo "atgc_management" "atgc_age_weight" "age_weight",
    rwAttr .atgcInfo "atgc_management" "atgc_age_threshold" "age_threshold",
    rwAttr .f3fsSbi "f3fs_sb_info" "seq_file_ra_mul" "seq_file_ra_mul",
    rwAttr .f3fsSbi "f3fs_sb_info" "gc_segment_mode" "gc_segment_mode",
    rwAttr .f3fsSbi "f3fs_sb_info" "gc_reclaimed_segments" "gc_reclaimed_segs",
    rwAttr .f3fsSbi "f3fs_sb_info" "max_fragment_chunk" "max_fragment_chunk",
    rwAttr .f3fsSbi "f3fs_sb_info" "max_fragment_hole" "max_fragment_hole",
    rwAttr .f3fsSbi "f3fs_sb_info" "peak_atomic_write" "peak_atomic_write",
    rwAttr .f3fsSbi "f3fs_sb_info" "committed_atomic_block" "committed_atomic_block",
    rwAttr .f3fsSbi "f3fs_sb_info" "revoked_atomic_block" "revoked_atomic_block"]

end F3fs
