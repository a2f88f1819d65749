import F3fs.Shrinker.Walk

/-!
# Sequential runs of the registry

shrinker.c has four entry points on `f3fs_list`: `f3fs_join_shrinker`, `f3fs_leave_shrinker`,
`f3fs_shrink_count` and `f3fs_shrink_scan`.  A `Call` is one of them with what it meets
outside; `Registry.call` runs one on the registry, `Registry.run` a sequence of them.

* `Registry.call_cases`   everything one call can do (one case per entry point);
* `Registry.run_nodup`    the list never holds a record twice;
* `Registry.run_mem_iff`  a record is on it exactly when its last join or leave is a join;
* `shrinkRunNo_fresh`     for the first `2 ^ 32 - 1` scans of a run from the empty registry, no
                          record carries the run id the next scan draws;
* `shrinkRunNo_wrap`      the `2 ^ 32`-th scan can draw a run id that a registered record still
                          carries: the walk then stops at line 91 on a record it never stamped.

A join of a record already on the list would relink a linked node: the call is undefined and
`Registry.call` returns `none`.  `f3fs_leave_shrinker` also empties the record's extent cache,
which the registry does not hold; `f3fs_shrink_count` only reads it (`Count.lean`).
-/

namespace F3fs

/-- One call of shrinker.c on the registry. -/
inductive Call where
  /-- `f3fs_join_shrinker(sbi)` -/
  | join (sbi : Nat)
  /-- `f3fs_leave_shrinker(sbi)` -/
  | leave (sbi : Nat)
  /-- `f3fs_shrink_count`: it writes nothing -/
  | count
  /-- `f3fs_shrink_scan` with `sc->nr_to_scan = nr` -/
  | scan (e : ShrinkEnv) (nr : Nat)

/-- The registry at boot: `LIST_HEAD(f3fs_list)`, `shrinker_run_no = 0` and every
`sbi->shrinker_run_no` zero (the records are allocated zeroed). -/
def Registry.init : Registry := ⟨[], 0, fun _ => 0⟩

/-- The number of run ids a call draws. -/
def Call.draws : Call → Nat
  | .scan _ _ => 1
  | _ => 0

/-- The number of scans of a run. -/
def scans : List Call → Nat
  | [] => 0
  | c :: cs => c.draws + scans cs

section
variable (w : Nat)

/-- One sequential call: the registry after it, and the log of a scan. -/
def Registry.call (r : Registry) : Call → Option (Registry × List Act)
  | .join sbi => if sbi ∈ r.list then none else some ({ r with list := listAddTail r.list sbi }, [])
  | .leave sbi => some ({ r with list := listDelInit r.list sbi }, [])
  | .count => some (r, [])
  | .scan e nr => (f3fsShrinkScan w e nr r).map Prod.snd

/-- A sequential run of calls. -/
def Registry.run : List Call → Registry → Option Registry
  | [], r => some r
  | c :: cs, r => (r.call w c).bind fun p => Registry.run cs p.1

@[simp] theorem Registry.run_nil (r : Registry) : r.run w [] = some r := rfl
@[simp] theorem Registry.run_cons (c : Call) (cs : List Call) (r : Registry) :
    r.run w (c :: cs) = (r.call w c).bind fun p => p.1.run w cs := rfl

theorem Registry.run_append (cs₁ cs₂ : List Call) (r : Registry) :
    r.run w (cs₁ ++ cs₂) = (r.run w cs₁).bind (Registry.run w cs₂) := by
  induction cs₁ generalizing r with
  | nil => rfl
  | cons c cs ih => simp only [List.cons_append, run_cons, ih, Option.bind_assoc]

/-- **What one call can do**, on a duplicate-free list. -/
theorem Registry.call_cases {r r' : Registry} {c : Call} {log : List Act} (hl : r.list.Nodup)
    (h : r.call w c = some (r', log)) :
    (∃ sbi, c = .join sbi ∧ sbi ∉ r.list ∧ r' = { r with list := r.list ++ [sbi] } ∧ log = []) ∨
    (∃ sbi, c = .leave sbi ∧ r' = { r with list := r.list.erase sbi } ∧ log = []) ∨
    (c = .count ∧ r' = r ∧ log = []) ∨
    (∃ e nr, c = .scan e nr ∧ (served log).Sublist r.list ∧
      r'.list = r.list.filter (· ∉ served log) ++ served log ∧ r'.runNo = nextRunNo r.runNo ∧
      ∀ x, r'.mark x = if x ∈ served log then nextRunNo r.runNo else r.mark x) := by
  cases c with
  | join sbi =>
    simp only [call] at h
    split at h
    · cases h
    · cases h; exact .inl ⟨sbi, rfl, ‹_›, rfl, rfl⟩
  | leave sbi => cases h; exact .inr (.inl ⟨sbi, rfl, rfl, rfl⟩)
  | count => cases h; exact .inr (.inr (.inl ⟨rfl, rfl, rfl⟩))
  | scan e nr =>
    obtain ⟨freed, r₁, log₁, hs, hsub, hlist, hrun, hmark⟩ := f3fsShrinkScan_spec w e nr r hl
    simp only [call, hs, Option.map_some', Option.some.injEq, Prod.mk.injEq] at h
    obtain ⟨rfl, rfl⟩ := h
    exact .inr (.inr (.inr ⟨e, nr, rfl, hsub, hlist, hrun, hmark⟩))

end

theorem nodup_filter_append {l S : List Nat} (hl : l.Nodup) (hS : S.Sublist l) :
    (l.filter (· ∉ S) ++ S).Nodup :=
  List.nodup_append.mpr ⟨hl.filter _, hS.nodup hl, fun _ hx hS => by simp_all⟩

section
variable {w : Nat}

theorem Registry.call_nodup {r r' : Registry} {c : Call} {log : List Act} (hl : r.list.Nodup)
    (h : r.call w c = some (r', log)) : r'.list.Nodup := by
  rcases call_cases w hl h with ⟨sbi, -, hs, rfl, -⟩ | ⟨sbi, -, rfl, -⟩ | ⟨-, rfl, -⟩ |
    ⟨e, nr, -, hsub, hlist, -⟩
  · exact List.nodup_append.mpr ⟨hl, List.nodup_singleton sbi, by simpa using hs⟩
  · exact hl.erase sbi
  · exact hl
  · exact hlist ▸ nodup_filter_append hl hsub

/-- The list of every run from a duplicate-free list stays duplicate-free. -/
theorem Registry.run_nodup : ∀ (cs : List Call) {r r' : Registry}, r.list.Nodup →
    r.run w cs = some r' → r'.list.Nodup
  | [], _, _, hl, h => by cases h; exact hl
  | c :: cs, r, r', hl, h => by
    simp only [run_cons, Option.bind_eq_some] at h
    obtain ⟨⟨r₁, log⟩, h₁, h₂⟩ := h
    exact run_nodup cs (call_nodup hl h₁) h₂

/-- Whether `x` is on the list after the call `c`, from whether it was before. -/
def Call.member (x : Nat) (b : Bool) : Call → Bool
  | .join sbi => b || sbi == x
  | .leave sbi => b && sbi != x
  | _ => b

theorem Registry.call_member {r r' : Registry} {c : Call} {log : List Act} (hl : r.list.Nodup)
    (h : r.call w c = some (r', log)) (x : Nat) :
    decide (x ∈ r'.list) = c.member x (decide (x ∈ r.list)) := by
  rcases call_cases w hl h with ⟨sbi, rfl, -, rfl, -⟩ | ⟨sbi, rfl, rfl, -⟩ | ⟨rfl, rfl, -⟩ |
    ⟨e, nr, rfl, hsub, hlist, -⟩
  · by_cases hx : sbi = x
    · subst hx; simp [Call.member]
    · simp [Call.member, hx, Ne.symm hx]
  · by_cases hx : sbi = x <;> simp [Call.member, hx, hl.mem_erase_iff, Ne.symm]
  · rfl
  · have : x ∈ r'.list ↔ x ∈ r.list := by
      rw [hlist, List.mem_append, List.mem_filter]
      by_cases hS : x ∈ served log
      · simp [hS, hsub.subset hS]
      · simp [hS]
    simp [Call.member, this]

theorem Registry.run_member : ∀ (cs : List Call) {r r' : Registry}, r.list.Nodup →
    r.run w cs = some r' → ∀ x, decide (x ∈ r'.list) = cs.foldl (Call.member x) (decide (x ∈ r.list))
  | [], _, _, _, h, _ => by cases h; rfl
  | c :: cs, r, r', hl, h, x => by
    simp only [run_cons, Option.bind_eq_some] at h
    obtain ⟨⟨r₁, log⟩, h₁, h₂⟩ := h
    rw [run_member cs (call_nodup hl h₁) h₂ x, call_member hl h₁, List.foldl_cons]

/-- Every record's `shrinker_run_no` is at most the global counter. -/
def Registry.Stamped (r : Registry) : Prop := ∀ x, r.mark x ≤ r.runNo

theorem Registry.call_stamped {r r' : Registry} {c : Call} {log : List Act} (hl : r.list.Nodup)
    (hs : r.Stamped) (hc : r.runNo + c.draws < 2 ^ 32) (h : r.call w c = some (r', log)) :
    r'.Stamped ∧ r'.runNo = r.runNo + c.draws := by
  rcases call_cases w hl h with ⟨sbi, rfl, -, rfl, -⟩ | ⟨sbi, rfl, rfl, -⟩ | ⟨rfl, rfl, -⟩ |
    ⟨e, nr, rfl, -, -, hrun, hmark⟩
  · exact ⟨hs, rfl⟩
  · exact ⟨hs, rfl⟩
  · exact ⟨hs, rfl⟩
  · have hnext : nextRunNo r.runNo = r.runNo + 1 := nextRunNo_of_lt hc
    refine ⟨fun x => ?_, by rw [hrun, hnext]; rfl⟩
    rw [hmark, hrun, hnext]
    split
    · exact le_rfl
    · exact Nat.le_succ_of_le (hs x)

theorem Registry.run_stamped : ∀ (cs : List Call) {r r' : Registry}, r.list.Nodup → r.Stamped →
    r.runNo + scans cs < 2 ^ 32 → r.run w cs = some r' →
    r'.Stamped ∧ r'.runNo = r.runNo + scans cs
  | [], _, _, _, hs, _, h => by cases h; exact ⟨hs, rfl⟩
  | c :: cs, r, r', hl, hs, hc, h => by
    simp only [run_cons, Option.bind_eq_some] at h
    obtain ⟨⟨r₁, log⟩, h₁, h₂⟩ := h
    simp only [scans] at hc
    obtain ⟨hs₁, hrun₁⟩ := call_stamped hl hs (by omega) h₁
    obtain ⟨hs', hrun'⟩ := run_stamped cs (call_nodup hl h₁) hs₁ (by omega) h₂
    exact ⟨hs', by rw [hrun', hrun₁, scans]; omega⟩

end

/-- **Run ids are fresh until the counter wraps.**  In every run from the empty registry, after
`k` scans with `k + 1 < 2 ^ 32` the counter is `k` and every record's `shrinker_run_no`
(registered or not) is below the run id the next scan draws. -/
theorem shrinkRunNo_fresh (w : Nat) (cs : List Call) (r : Registry)
    (hrun : Registry.init.run w cs = some r) (hcs : scans cs + 1 < 2 ^ 32) :
    r.runNo = scans cs ∧ ∀ x, r.mark x < nextRunNo r.runNo := by
  obtain ⟨hs, hno⟩ := Registry.run_stamped cs List.nodup_nil (fun _ => le_rfl) (by
    simp only [Registry.init]; omega) hrun
  simp only [Registry.init, Nat.zero_add] at hno
  refine ⟨hno, fun x => ?_⟩
  rw [nextRunNo_of_lt (by omega)]
  exact Nat.lt_succ_of_le (hs x)

/-- The environment in which every trylock fails. -/
def busyEnv : ShrinkEnv := ⟨fun _ => false, fun _ _ req => req⟩

theorem shrinkRunNo_fresh_two :
    ∃ r, Registry.init.run 64 [.join 0, .scan freeEnv 1] = some r ∧ r.runNo = 1 ∧
      ∀ x, r.mark x < nextRunNo r.runNo := by
  refine ⟨_, rfl, ?_⟩
  exact shrinkRunNo_fresh 64 [.join 0, .scan freeEnv 1] _ rfl (by decide)

theorem Registry.run_busy (m : Nat → Nat) (hm : m 0 = 1) :
    ∀ (n c : Nat), 1 ≤ c → c + n < 2 ^ 32 →
      Registry.run 64 (List.replicate n (.scan busyEnv 1)) ⟨[0], c, m⟩ = some ⟨[0], c + n, m⟩
  | 0, c, _, _ => rfl
  | n + 1, c, hc, hcn => by
    have hnext : nextRunNo c = c + 1 := nextRunNo_of_lt (by omega)
    have hscan : f3fsShrinkScan 64 busyEnv 1 ⟨[0], c, m⟩ = some (0, ⟨[0], c + 1, m⟩, [.busy 0]) := by
      simp only [f3fsShrinkScan, hnext, Registry.walk, List.length_singleton, List.head?_cons,
        scanLoop, hm, busyEnv]
      simp (disch := omega) only [if_neg]
      rfl
    rw [List.replicate_succ, Registry.run_cons]
    simp only [Registry.call, hscan, Option.map_some', Option.some_bind]
    rw [run_busy m hm n (c + 1) (by omega) (by omega)]
    simp only [Nat.add_right_comm c 1 n, Nat.add_assoc]

/-- **The run id wraps onto a live mark.**  Record `0` joins and is served by the first scan
(run id 1); the next `2 ^ 32 - 2` scans find it busy.  The counter is then `2 ^ 32 - 1`, so the
next scan draws 1 again, skipping 0: record `0` still carries it, and that scan stops at line 91
on record `0` without having stamped it, serving nothing. -/
theorem shrinkRunNo_wrap :
    ∃ r, Registry.init.run 64
        ([.join 0, .scan freeEnv 1] ++ List.replicate (2 ^ 32 - 2) (.scan busyEnv 1)) = some r ∧
      0 ∈ r.list ∧ r.mark 0 = nextRunNo r.runNo ∧
      f3fsShrinkScan 64 freeEnv 1 r = some (0, ⟨r.list, nextRunNo r.runNo, r.mark⟩, []) := by
  have hm : Function.update (fun _ => 0) 0 (nextRunNo 0) 0 = 1 := rfl
  have h₂ : Registry.init.run 64 [.join 0, .scan freeEnv 1] =
      some ⟨[0], 1, Function.update (fun _ => 0) 0 (nextRunNo 0)⟩ := rfl
  refine ⟨⟨[0], 2 ^ 32 - 1, Function.update (fun _ => 0) 0 (nextRunNo 0)⟩, ?_, by simp, ?_, ?_⟩
  · rw [Registry.run_append, h₂, Option.some_bind,
      Registry.run_busy _ hm (2 ^ 32 - 2) 1 le_rfl (by omega)]
    rfl
  · rfl
  · rfl

/-- **Joins and leaves are never lost.**  In every run from the empty registry, a record is on
`f3fs_list` exactly when its last join or leave is a join: counts and scans reorder the list but
never add or drop a record. -/
theorem Registry.run_mem_iff (w : Nat) (cs : List Call) (r : Registry)
    (hrun : Registry.init.run w cs = some r) (x : Nat) :
    x ∈ r.list ↔ cs.foldl (Call.member x) false = true := by
  simpa [Registry.init] using congrArg (· = true) (Registry.run_member cs List.nodup_nil hrun x)

theorem Registry.run_mem_iff_three :
    ∃ r, Registry.init.run 64 [.join 0, .join 1, .leave 0, .scan freeEnv 1] = some r ∧
      (1 ∈ r.list ↔ [Call.join 0, .join 1, .leave 0, .scan freeEnv 1].foldl (Call.member 1) false) :=
  ⟨_, rfl, Registry.run_mem_iff 64 [.join 0, .join 1, .leave 0, .scan freeEnv 1] _ rfl 1⟩

end F3fs
