import F3fs.Shrinker.List

/-!
# `f3fs_shrink_scan`: one sequential call

shrinker.c, lines 73-122.  The registry is the list, the global `shrinker_run_no` and each
record's `sbi->shrinker_run_no` (its mark).  What the call meets outside shrinker.c is a
`ShrinkEnv`: the outcome of `mutex_trylock(&sbi->umount_mutex)` for each record, and the amount
each of the three shrink functions reports freed for a record and a request.

* `nextRunNo`        lines 83-85 on the 32-bit counter, skipping 0;
* `Walk`             what the loop carries: the list, the marks, `freed` and a log of what it did
                     (`Act`: a record skipped as busy, a shrink call with the total before it);
* `serve`            lines 100-111 on one record: stamp it, then the three tiers;
* `scanLoop`         the loop of lines 87-119, with a bound on its passes;
* `f3fsShrinkScan`   the whole call (the loop ends within `|list| + 1` passes, `Walk.lean`).

`freed` and `nr` are `unsigned long`: sums are taken modulo `2 ^ w`, `w` being `BITS_PER_LONG`.
-/

namespace F3fs

/-- The three shrink calls of `f3fs_shrink_scan`, in the order it makes them. -/
inductive Tier where
  /-- `f3fs_shrink_extent_tree` -/
  | extent
  /-- `f3fs_try_to_free_nats` -/
  | nats
  /-- `f3fs_try_to_free_nids` -/
  | nids
  deriving DecidableEq, Repr

/-- The outside world of one sequential call: the `umount_mutex` trylock outcome of each record
and what each shrink function reports freed for a record and a request. -/
structure ShrinkEnv where
  trylock : Nat → Bool
  shrink : Tier → Nat → Nat → Nat

/-- What the walk did, in order. -/
inductive Act where
  /-- the trylock on `sbi` failed and the walk stepped past it (lines 94-96) -/
  | busy (sbi : Nat)
  /-- the shrink call of tier `t` on `sbi` asked for `req` and reported `got`; `freed` is the
  running total before it -/
  | shrink (t : Tier) (sbi req got freed : Nat)
  deriving DecidableEq, Repr

/-- The state of the scan loop. -/
structure Walk where
  /-- `f3fs_list` -/
  list : List Nat
  /-- `sbi->shrinker_run_no` of each record -/
  mark : Nat → Nat
  freed : Nat
  log : List Act

/-- The environment in which every trylock succeeds and every shrink frees what it is asked. -/
def freeEnv : ShrinkEnv := ⟨fun _ => true, fun _ _ req => req⟩

/-- The registry state that the calls of shrinker.c read and write. -/
structure Registry where
  /-- `f3fs_list` -/
  list : List Nat
  /-- the global `shrinker_run_no` (an `unsigned int`) -/
  runNo : Nat
  /-- `sbi->shrinker_run_no` of each record -/
  mark : Nat → Nat

/-- `do { run_no = ++shrinker_run_no; } while (run_no == 0);` on a 32-bit counter. -/
def nextRunNo (c : Nat) : Nat :=
  let r := (c + 1) % 2 ^ 32
  if r = 0 then (r + 1) % 2 ^ 32 else r

section
variable (w : Nat)

/-- `freed += <tier>(sbi, req)`: one shrink call, logged with the total before it. -/
def Walk.call (e : ShrinkEnv) (t : Tier) (sbi req : Nat) (s : Walk) : Walk :=
  { s with freed := (s.freed + e.shrink t sbi req) % 2 ^ w,
           log := s.log ++ [.shrink t sbi req (e.shrink t sbi req) s.freed] }

/-- `if (freed < nr) freed += <tier>(sbi, nr - freed);` -/
def Walk.callIfShort (e : ShrinkEnv) (t : Tier) (nr sbi : Nat) (s : Walk) : Walk :=
  if s.freed < nr then s.call w e t sbi (nr - s.freed) else s

/-- Lines 100-111: stamp `sbi` with the run id, then the extent tier for `nr >> 1` and the NAT
and free-nid tiers for what is left of `nr`. -/
def serve (e : ShrinkEnv) (nr runNo sbi : Nat) (s : Walk) : Walk :=
  (((({ s with mark := Function.update s.mark sbi runNo } : Walk).call w e .extent sbi
    (nr >>> 1)).callIfShort w e .nats nr sbi).callIfShort w e .nids nr sbi)

/-- The loop of lines 87-119 from the cursor `p`, for at most `fuel` passes (`none` when they
run out). -/
def scanLoop (e : ShrinkEnv) (nr runNo : Nat) : Nat → Option Nat → Walk → Option Walk
  | 0, _, _ => none
  | _ + 1, none, s => some s
  | fuel + 1, some sbi, s =>
    if s.mark sbi = runNo then some s
    else if e.trylock sbi = false then
      scanLoop e nr runNo fuel (nextOf s.list sbi) { s with log := s.log ++ [.busy sbi] }
    else
      let s := serve w e nr runNo sbi s
      let p := nextOf s.list sbi
      let s := { s with list := listMoveTail s.list sbi }
      if nr ≤ s.freed then some s else scanLoop e nr runNo fuel p s

/-- The walk's state when the loop starts. -/
def Registry.walk (r : Registry) : Walk := ⟨r.list, r.mark, 0, []⟩

/-- `f3fs_shrink_scan` with `sc->nr_to_scan = nr`: the value returned, the registry after the
call and the log of the walk. -/
def f3fsShrinkScan (e : ShrinkEnv) (nr : Nat) (r : Registry) :
    Option (Nat × Registry × List Act) :=
  let runNo := nextRunNo r.runNo
  (scanLoop w e nr runNo (r.list.length + 1) r.list.head? r.walk).map
    fun s => (s.freed, ⟨s.list, runNo, s.mark⟩, s.log)

@[simp] theorem Walk.call_list (e : ShrinkEnv) (t : Tier) (sbi req : Nat) (s : Walk) :
    (s.call w e t sbi req).list = s.list := rfl
@[simp] theorem Walk.call_mark (e : ShrinkEnv) (t : Tier) (sbi req : Nat) (s : Walk) :
    (s.call w e t sbi req).mark = s.mark := rfl
@[simp] theorem Walk.callIfShort_list (e : ShrinkEnv) (t : Tier) (nr sbi : Nat) (s : Walk) :
    (s.callIfShort w e t nr sbi).list = s.list := by
  unfold Walk.callIfShort; split <;> rfl
@[simp] theorem Walk.callIfShort_mark (e : ShrinkEnv) (t : Tier) (nr sbi : Nat) (s : Walk) :
    (s.callIfShort w e t nr sbi).mark = s.mark := by
  unfold Walk.callIfShort; split <;> rfl

@[simp] theorem serve_list (e : ShrinkEnv) (nr runNo sbi : Nat) (s : Walk) :
    (serve w e nr runNo sbi s).list = s.list := by simp [serve]
@[simp] theorem serve_mark (e : ShrinkEnv) (nr runNo sbi : Nat) (s : Walk) :
    (serve w e nr runNo sbi s).mark = Function.update s.mark sbi runNo := by simp [serve]

end

theorem nextRunNo_of_lt {c : Nat} (h : c + 1 < 2 ^ 32) : nextRunNo c = c + 1 := by
  simp only [nextRunNo, Nat.mod_eq_of_lt h]; split <;> omega

end F3fs
