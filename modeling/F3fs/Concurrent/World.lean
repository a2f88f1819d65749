import F3fs.Shrinker.Scan

/-!
# Concurrent calls of shrinker.c

Any number of threads run `f3fs_shrink_scan`, `f3fs_shrink_count`, `f3fs_join_shrinker` and
the unmount path (`mutex_lock(&sbi->umount_mutex)`, `f3fs_leave_shrinker(sbi)`,
`mutex_unlock`).  An atomic step is one `f3fs_list_lock` critical section, or what a thread does
between two of them while it holds a record's `umount_mutex`.

* `Pc`            where a thread is between steps;
* `World`         the list, the run ids, the `umount_mutex` holders, the threads, and three ghost
                  fields: the records joined and not yet left, the number of scan calls started,
                  and the log of processings (line 100) by call;
* `walkLocked`    the part of a loop run under the list lock: lines 46-53 and 87-96;
* `World.step`    one atomic step of thread `t`, with the records it reads or writes;
* `World.Reach`   the states of all interleavings from boot;
* `World.step_scan`, `World.step_serve`, ...   one lemma per move, the world it leaves, so that
                  the run of a fixed interleaving is a chain of them (`World.steps_cons`).

The three shrink calls of a scan are `serve` of `Scan.lean`; the amounts of a count are in
`Count.lean` and are not kept here.
-/

namespace F3fs

/-- Where a thread is, between atomic steps. -/
inductive Pc where
  /-- outside shrinker.c and the unmount path -/
  | idle
  /-- a scan (call `call`, budget `nr`, run id `runNo`, total `freed`) that took `sbi`'s
  `umount_mutex` and dropped the list lock (line 98) -/
  | scanHeld (call nr runNo freed sbi : Nat)
  /-- the same scan after lines 100-111, before it takes the list lock again (line 113) -/
  | scanServed (call nr runNo freed sbi : Nat)
  /-- a count that took `sbi`'s `umount_mutex` and dropped the list lock (line 54) -/
  | countHeld (sbi : Nat)
  /-- the unmount path, holding `sbi`'s `umount_mutex` -/
  | umountHeld (sbi : Nat)
  deriving DecidableEq, Repr

/-- The record whose `umount_mutex` the thread holds. -/
def Pc.held : Pc → Option Nat
  | .scanHeld _ _ _ _ sbi | .scanServed _ _ _ _ sbi | .countHeld sbi | .umountHeld sbi => some sbi
  | .idle => none

/-- The record a scan or count cursor `p` stands at while the list lock is dropped. -/
def Pc.cursor : Pc → Option Nat
  | .scanHeld _ _ _ _ sbi | .scanServed _ _ _ _ sbi | .countHeld sbi => some sbi
  | _ => none

/-- The shared state and the threads. -/
structure World where
  /-- `f3fs_list` -/
  list : List Nat
  /-- the global `shrinker_run_no` -/
  runNo : Nat
  /-- `sbi->shrinker_run_no` -/
  mark : Nat → Nat
  /-- the thread holding each `umount_mutex` -/
  owner : Nat → Option Nat
  /-- each thread -/
  pc : Nat → Pc
  /-- ghost: the records joined and not yet removed by a leave -/
  live : Nat → Bool
  /-- ghost: the number of scan calls started -/
  calls : Nat
  /-- ghost: each processing (line 100), as the scan call and the record -/
  hist : List (Nat × Nat)

/-- Boot: an empty list, every counter zero, no mutex held, every thread idle. -/
def World.init : World := ⟨[], 0, fun _ => 0, fun _ => none, fun _ => .idle, fun _ => false, 0, []⟩

/-- One atomic step of a thread. -/
inductive Move where
  /-- `f3fs_shrink_scan` starts: lines 82-98 -/
  | scan (nr : Nat)
  /-- lines 100-111 on the record held, with what the shrink calls report -/
  | serve (e : ShrinkEnv)
  /-- lines 113-117 and the loop on to the next record taken (lines 86-98) -/
  | scanRelock
  /-- `f3fs_shrink_count` starts: lines 44-54 -/
  | count
  /-- lines 56-66 and the loop on -/
  | countRelock
  /-- `f3fs_join_shrinker(sbi)` -/
  | join (sbi : Nat)
  /-- the unmount path takes `sbi`'s `umount_mutex` -/
  | umountLock (sbi : Nat)
  /-- `f3fs_leave_shrinker` on the record the unmount path holds -/
  | leave
  /-- the unmount path releases its `umount_mutex` -/
  | umountUnlock

/-- The part of a loop run under `f3fs_list_lock`, from the cursor `p`: a record whose trylock
fails (`busy`) is stepped past; the walk ends at the head or at a record `stop` picks (`none`),
or takes the first free record (`some sbi`).  Also the records it reads, in order. -/
def walkLocked (l : List Nat) (busy stop : Nat → Bool) : Nat → Option Nat → Option Nat × List Nat
  | 0, _ => (none, [])
  | _ + 1, none => (none, [])
  | fuel + 1, some sbi =>
    if stop sbi then (none, [sbi])
    else if busy sbi then
      let r := walkLocked l busy stop fuel (nextOf l sbi)
      (r.1, sbi :: r.2)
    else (some sbi, [sbi])

/-- The walk of a scan: a record already carrying the run id stops it (line 90). -/
def World.scanWalk (s : World) (t call nr runNo freed : Nat) (p : Option Nat) :
    World × List Nat :=
  let r := walkLocked s.list (fun x => (s.owner x).isSome) (fun x => s.mark x = runNo)
    (s.list.length + 1) p
  match r.1 with
  | none => ({ s with pc := Function.update s.pc t .idle }, r.2)
  | some sbi =>
    ({ s with owner := Function.update s.owner sbi (some t),
              pc := Function.update s.pc t (.scanHeld call nr runNo freed sbi) }, r.2)

/-- The walk of a count. -/
def World.countWalk (s : World) (t : Nat) (p : Option Nat) : World × List Nat :=
  let r := walkLocked s.list (fun x => (s.owner x).isSome) (fun _ => false) (s.list.length + 1) p
  match r.1 with
  | none => ({ s with pc := Function.update s.pc t .idle }, r.2)
  | some sbi =>
    ({ s with owner := Function.update s.owner sbi (some t),
              pc := Function.update s.pc t (.countHeld sbi) }, r.2)

/-- Thread `t` gives back the `umount_mutex` of `sbi` and is between two critical sections. -/
def World.release (s : World) (t sbi : Nat) : World :=
  { s with owner := Function.update s.owner sbi none, pc := Function.update s.pc t .idle }

section
variable (w : Nat)

/-- One atomic step of thread `t`, and the records it reads or writes in shrinker.c (`none` when
the thread cannot take it). -/
def World.step (s : World) (t : Nat) : Move → Option (World × List Nat)
  | .scan nr =>
    if s.pc t = .idle then
      some (({ s with runNo := nextRunNo s.runNo, calls := s.calls + 1 } : World).scanWalk t
        s.calls nr (nextRunNo s.runNo) 0 s.list.head?)
    else none
  | .serve e =>
    match s.pc t with
    | .scanHeld c nr runNo freed sbi =>
      let v := serve w e nr runNo sbi ⟨s.list, s.mark, freed, []⟩
      some ({ s with mark := v.mark, pc := Function.update s.pc t (.scanServed c nr runNo v.freed sbi),
                     hist := s.hist ++ [(c, sbi)] }, [sbi])
    | _ => none
  | .scanRelock =>
    match s.pc t with
    | .scanServed c nr runNo freed sbi =>
      let s' := ({ s with list := listMoveTail s.list sbi } : World).release t sbi
      if nr ≤ freed then some (s', [sbi])
      else
        let r := s'.scanWalk t c nr runNo freed (nextOf s.list sbi)
        some (r.1, sbi :: r.2)
    | _ => none
  | .count => if s.pc t = .idle then some (s.countWalk t s.list.head?) else none
  | .countRelock =>
    match s.pc t with
    | .countHeld sbi =>
      let r := (s.release t sbi).countWalk t (nextOf s.list sbi)
      some (r.1, sbi :: r.2)
    | _ => none
  | .join sbi =>
    if s.pc t = .idle ∧ sbi ∉ s.list then
      some ({ s with list := listAddTail s.list sbi, live := Function.update s.live sbi true }, [])
    else none
  | .umountLock sbi =>
    if s.pc t = .idle ∧ s.owner sbi = none then
      some ({ s with owner := Function.update s.owner sbi (some t),
                     pc := Function.update s.pc t (.umountHeld sbi) }, [])
    else none
  | .leave =>
    match s.pc t with
    | .umountHeld sbi =>
      some ({ s with list := listDelInit s.list sbi, live := Function.update s.live sbi false }, [])
    | _ => none
  | .umountUnlock =>
    match s.pc t with
    | .umountHeld sbi => some (s.release t sbi, [])
    | _ => none

/-- The states of all interleavings from boot. -/
inductive World.Reach : World → Prop
  | init : World.Reach World.init
  | step {s s' : World} {v : List Nat} (t : Nat) (m : Move) :
      World.Reach s → s.step w t m = some (s', v) → World.Reach s'

/-- A sequence of steps, each a thread and its move. -/
def World.steps (s : World) : List (Nat × Move) → Option World
  | [] => some s
  | (t, m) :: ms => (s.step w t m).bind fun r => World.steps r.1 ms

theorem World.Reach.steps {s s' : World} (hs : World.Reach w s) :
    ∀ (ms : List (Nat × Move)), s.steps w ms = some s' → World.Reach w s'
  | [], h => by cases h; exact hs
  | (t, m) :: ms, h => by
    simp only [World.steps, Option.bind_eq_some] at h
    obtain ⟨⟨s₁, v⟩, h₁, h₂⟩ := h
    exact (hs.step t m h₁).steps ms h₂

theorem World.steps_append (s : World) (ms₁ ms₂ : List (Nat × Move)) :
    s.steps w (ms₁ ++ ms₂) = (s.steps w ms₁).bind fun s' => s'.steps w ms₂ := by
  induction ms₁ generalizing s with
  | nil => rfl
  | cons m ms ih =>
    simp only [List.cons_append, World.steps]
    cases s.step w m.1 m.2 <;> simp [ih]

end

/-! ## One move at a time

Each lemma below is one case of `World.step`, stated as the world the move leaves; the run of a
fixed interleaving is a chain of them (`World.steps_cons`). -/

theorem walkLocked_take {l : List Nat} {busy stop : Nat → Bool} {fuel x : Nat}
    (hs : stop x = false) (hb : busy x = false) :
    walkLocked l busy stop (fuel + 1) (some x) = (some x, [x]) := by
  simp [walkLocked, hs, hb]

theorem walkLocked_skip {l : List Nat} {busy stop : Nat → Bool} {fuel x : Nat}
    (hs : stop x = false) (hb : busy x = true) :
    (walkLocked l busy stop (fuel + 1) (some x)).1 =
      (walkLocked l busy stop fuel (nextOf l x)).1 := by
  simp [walkLocked, hs, hb]

@[simp] theorem walkLocked_none (l : List Nat) (busy stop : Nat → Bool) (fuel : Nat) :
    (walkLocked l busy stop fuel none).1 = none := by
  cases fuel <;> rfl

section
variable {w : Nat} {s s' : World} {t c nr a f x : Nat} {p : Option Nat}

theorem World.scanWalk_of_some
    (h : (walkLocked s.list (fun y => (s.owner y).isSome) (fun y => s.mark y = a)
      (s.list.length + 1) p).1 = some x) :
    (s.scanWalk t c nr a f p).1 =
      { s with owner := Function.update s.owner x (some t),
               pc := Function.update s.pc t (.scanHeld c nr a f x) } := by
  simp only [World.scanWalk, h]

theorem World.scanWalk_of_none
    (h : (walkLocked s.list (fun y => (s.owner y).isSome) (fun y => s.mark y = a)
      (s.list.length + 1) p).1 = none) :
    (s.scanWalk t c nr a f p).1 = { s with pc := Function.update s.pc t .idle } := by
  simp only [World.scanWalk, h]

theorem World.countWalk_of_some
    (h : (walkLocked s.list (fun y => (s.owner y).isSome) (fun _ => false)
      (s.list.length + 1) p).1 = some x) :
    (s.countWalk t p).1 =
      { s with owner := Function.update s.owner x (some t),
               pc := Function.update s.pc t (.countHeld x) } := by
  simp only [World.countWalk, h]

theorem World.countWalk_of_none
    (h : (walkLocked s.list (fun y => (s.owner y).isSome) (fun _ => false)
      (s.list.length + 1) p).1 = none) :
    (s.countWalk t p).1 = { s with pc := Function.update s.pc t .idle } := by
  simp only [World.countWalk, h]

theorem World.steps_cons {m : Move} (ms : List (Nat × Move))
    (h : (s.step w t m).map Prod.fst = some s') : s.steps w ((t, m) :: ms) = s'.steps w ms := by
  obtain ⟨r, hr, rfl⟩ := Option.map_eq_some'.1 h
  simp only [World.steps, hr, Option.some_bind]

theorem World.step_scan (hidle : s.pc t = .idle) :
    (s.step w t (.scan nr)).map Prod.fst =
      some (({ s with runNo := nextRunNo s.runNo, calls := s.calls + 1 } : World).scanWalk t
        s.calls nr (nextRunNo s.runNo) 0 s.list.head?).1 := by
  simp [World.step, hidle]

theorem World.step_serve (e : ShrinkEnv) (hpc : s.pc t = .scanHeld c nr a f x) :
    (s.step w t (.serve e)).map Prod.fst =
      some { s with
        mark := Function.update s.mark x a
        pc := Function.update s.pc t
          (.scanServed c nr a (serve w e nr a x ⟨s.list, s.mark, f, []⟩).freed x)
        hist := s.hist ++ [(c, x)] } := by
  simp [World.step, hpc]

theorem World.step_scanRelock (hpc : s.pc t = .scanServed c nr a f x) (hf : f < nr) :
    (s.step w t .scanRelock).map Prod.fst =
      some ((({ s with list := listMoveTail s.list x } : World).release t x).scanWalk t c nr a f
        (nextOf s.list x)).1 := by
  simp [World.step, hpc, Nat.not_le.2 hf]

theorem World.step_count (hidle : s.pc t = .idle) :
    (s.step w t .count).map Prod.fst = some (s.countWalk t s.list.head?).1 := by
  simp [World.step, hidle]

theorem World.step_countRelock (hpc : s.pc t = .countHeld x) :
    (s.step w t .countRelock).map Prod.fst =
      some ((s.release t x).countWalk t (nextOf s.list x)).1 := by
  simp [World.step, hpc]

theorem World.step_join (hidle : s.pc t = .idle) (hx : x ∉ s.list) :
    (s.step w t (.join x)).map Prod.fst =
      some { s with list := listAddTail s.list x, live := Function.update s.live x true } := by
  simp [World.step, hidle, hx]

end

end F3fs
