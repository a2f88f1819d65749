import F3fs.Sysfs.Attr

/-!
# Registering an instance in sysfs

sysfs.c, lines 1274-1350.  `f3fs_register_sysfs` adds three kobjects, the directory of the
instance `s_kobj` and `stat` and `feature_list` under it, then a proc directory with its files.
When an add fails it puts back what it added, newest first, and waits for each release.
`f3fs_unregister_sysfs` removes it all again.

* `KObj`, `SysfsEntries`   what the kobject API keeps of each kobject (its references, whether it
                           is in sysfs, whether its `release` has run) and the proc entries;
* `kobjectInitAndAdd`, `kobjectPut`, `kobjectDel`, `waitForCompletion`   the contract of the
                           kobject API: a child in sysfs holds a reference on its parent, the last
                           put releases a kobject, and a wait for a release that never comes does
                           not return (`none`);
* `f3fsRegisterSysfs`, `f3fsUnregisterSysfs`   the two functions, with what the adds and the proc
                           calls return as parameters.
-/

namespace F3fs

/-- The kobjects of an instance. -/
inductive KObjId where
  /-- `sbi->s_kobj`, the directory of the instance -/
  | sb
  /-- `sbi->s_stat_kobj`, `stat` under it -/
  | stat
  /-- `sbi->s_feature_list_kobj`, `feature_list` under it -/
  | featureList
  deriving DecidableEq, Repr

/-- A kobject, as the kobject API keeps it. -/
structure KObj where
  /-- its `kref` -/
  refs : Nat
  /-- `state_in_sysfs` -/
  inSysfs : Bool
  /-- its `release` has run and completed the matching `..._kobj_unregister` -/
  released : Bool
  deriving DecidableEq, Repr

/-- The sysfs and proc entries of an instance. -/
structure SysfsEntries where
  /-- `sbi->s_kobj` -/
  sb : KObj
  /-- `sbi->s_stat_kobj` -/
  stat : KObj
  /-- `sbi->s_feature_list_kobj` -/
  featureList : KObj
  /-- `sbi->s_proc != NULL` -/
  proc : Bool
  /-- the directory `sbi->s_proc` points to is in proc -/
  procDir : Bool
  /-- the files in that directory -/
  procFiles : List String
  deriving DecidableEq, Repr

/-- A zeroed instance: no kobject initialized, no proc entry. -/
def SysfsEntries.zero : SysfsEntries :=
  ⟨⟨0, false, false⟩, ⟨0, false, false⟩, ⟨0, false, false⟩, false, false, []⟩

/-- The kobject `k` of the instance. -/
def SysfsEntries.obj (s : SysfsEntries) : KObjId → KObj
  | .sb => s.sb
  | .stat => s.stat
  | .featureList => s.featureList

/-- The entries with the kobject `k` replaced. -/
def SysfsEntries.setObj (s : SysfsEntries) : KObjId → KObj → SysfsEntries
  | .sb, o => { s with sb := o }
  | .stat, o => { s with stat := o }
  | .featureList, o => { s with featureList := o }

/-! ## The kobject API -/

/-- `kobject_put(&sbi->s_kobj)`: the last reference releases it, leaving sysfs (its own parent
is the `f3fs` kset, outside the instance). -/
def putSb (s : SysfsEntries) : SysfsEntries :=
  if (s.obj .sb).refs = 1 then s.setObj .sb ⟨0, false, true⟩
  else s.setObj .sb { s.obj .sb with refs := (s.obj .sb).refs - 1 }

/-- `kobject_put`: the last reference releases the kobject; one released while in sysfs first
leaves it and gives back its reference on its parent. -/
def kobjectPut (k : KObjId) (s : SysfsEntries) : SysfsEntries :=
  match k with
  | .sb => putSb s
  | _ =>
    if (s.obj k).refs = 1 then
      if (s.obj k).inSysfs then putSb (s.setObj k ⟨0, false, true⟩) else s.setObj k ⟨0, false, true⟩
    else s.setObj k { s.obj k with refs := (s.obj k).refs - 1 }

/-- `kobject_del`: the kobject leaves sysfs and gives back its reference on its parent. -/
def kobjectDel (k : KObjId) (s : SysfsEntries) : SysfsEntries :=
  if (s.obj k).inSysfs then
    match k with
    | .sb => s.setObj .sb { s.obj .sb with inSysfs := false }
    | _ => putSb (s.setObj k { s.obj k with inSysfs := false })
  else s

/-- `kobject_init_and_add`: the kobject holds one reference, and when the add succeeds
(`err = 0`) it is in sysfs and holds one on its parent. -/
def kobjectInitAndAdd (k : KObjId) (err : Int) (s : SysfsEntries) : SysfsEntries :=
  match k with
  | .sb => s.setObj .sb ⟨1, err = 0, false⟩
  | _ =>
    if err = 0 then
      (s.setObj k ⟨1, true, false⟩).setObj .sb { s.obj .sb with refs := (s.obj .sb).refs + 1 }
    else s.setObj k ⟨1, false, false⟩

/-- `wait_for_completion` on the release of `k`: it returns only once `k` is released. -/
def waitForCompletion (k : KObjId) (s : SysfsEntries) : Option SysfsEntries :=
  if (s.obj k).released then some s else none

/-- The two lines at each error label: `kobject_put`, then the wait for the release. -/
def putAndWait (k : KObjId) (s : SysfsEntries) : Option SysfsEntries :=
  waitForCompletion k (kobjectPut k s)

/-! ## `f3fs_register_sysfs` and `f3fs_unregister_sysfs` -/

/-- What the calls of `f3fs_register_sysfs` into the kobject and proc APIs return. -/
structure RegisterEnv where
  /-- the three `kobject_init_and_add` calls -/
  addSb : Int
  addStat : Int
  addFeatureList : Int
  /-- `f3fs_proc_root != NULL` -/
  procRoot : Bool
  /-- `proc_mkdir(sb->s_id, f3fs_proc_root)` succeeds -/
  procMkdir : Bool
  /-- `proc_create_single_data(name, ...)` succeeds -/
  procCreate : String → Bool

/-- The files `f3fs_register_sysfs` creates in `sbi->s_proc`. -/
def procFileNames : List String := ["segment_info", "segment_bits", "iostat_info", "victim_bits"]

/-- `f3fs_register_sysfs` (lines 1274-1327): the value it returns and the entries; `none` if a
wait never returns. -/
def f3fsRegisterSysfs (e : RegisterEnv) (s : SysfsEntries) : Option (Int × SysfsEntries) :=
  let s := kobjectInitAndAdd .sb e.addSb s
  if e.addSb ≠ 0 then (putAndWait .sb s).map (e.addSb, ·)
  else
    let s := kobjectInitAndAdd .stat e.addStat s
    if e.addStat ≠ 0 then ((putAndWait .stat s).bind (putAndWait .sb)).map (e.addStat, ·)
    else
      let s := kobjectInitAndAdd .featureList e.addFeatureList s
      if e.addFeatureList ≠ 0 then
        (((putAndWait .featureList s).bind (putAndWait .stat)).bind (putAndWait .sb)).map
          (e.addFeatureList, ·)
      else
        let s := if e.procRoot then { s with proc := e.procMkdir, procDir := e.procMkdir } else s
        some (0, if s.proc then { s with procFiles := procFileNames.filter e.procCreate } else s)

/-- `f3fs_unregister_sysfs` (lines 1329-1350); `none` if a wait never returns. -/
def f3fsUnregisterSysfs (s : SysfsEntries) : Option SysfsEntries := do
  let s := if s.proc then
    { s with procDir := false, procFiles := s.procFiles.filter (· ∉ procFileNames) } else s
  let s ← putAndWait .stat (kobjectDel .stat s)
  let s ← putAndWait .featureList (kobjectDel .featureList s)
  putAndWait .sb (kobjectDel .sb s)

end F3fs
