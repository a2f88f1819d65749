import F3fs.Concurrent.Unbounded
import F3fs.Concurrent.Solo
import F3fs.Shrinker.Count

/-!
# What a count adds up

`World` keeps where each count is but not what it has added.  `Tally` keeps that too: each
thread's `count` (line 42) and, as a ghost, the records its current call has added, in order.
A tally steps as its world does (`Tally.steps_world`), so every result on `World` holds of its
world part.

The counters of each record are a parameter, read alike at every step: a scan that frees entries
would change them, and the world does not keep them.

* `Tally.Summed.steps`   in every run, each thread's total is the `unsigned long` sum of the
                         counts of the records its call has added;
* `Tally.countWalk_pass` from each walk on, a count that runs alone adds up the free records
                         after its cursor;
* `Tally.count_solo`     a count that runs alone returns what `f3fs_shrink_count` returns on the
                         same list, adds the records whose `umount_mutex` is free, and leaves the
                         world as it found it;
* `shrinkCount_exact`    with the counters in range, that total is the exact sum, and the call
                         leaves the list, the run ids and the mutexes as they were;
* `shrinkCount_unbounded`   with scans running beside it, one count call adds the two records of
                         a list in turn for as long as the scans go on, and then returns.
-/

namespace F3fs

/-- The world and each thread's count. -/
structure Tally where
  world : World
  /-- each thread's `count` (line 42) -/
  count : Nat → Nat
  /-- ghost: the records the thread's current count call has added, in order -/
  added : Nat → List Nat

/-- Boot: every total zero. -/
def Tally.init : Tally := ⟨World.init, fun _ => 0, fun _ => []⟩

section
variable (w M : Nat) (cnt : Nat → Counters)

/-- One step: the world's step; a count that starts sets its `count` to 0 (line 42), and one
that relocks from `sbi` has added the counts of `sbi` (lines 56-63). -/
def Tally.step (T : Tally) (t : Nat) (m : Move) : Option Tally :=
  (T.world.step w t m).map fun r =>
    match m, T.world.pc t with
    | .count, _ => ⟨r.1, Function.update T.count t 0, Function.update T.added t []⟩
    | .countRelock, .countHeld sbi =>
      ⟨r.1, Function.update T.count t (addCounts w M (cnt sbi) (T.count t)),
        Function.update T.added t (T.added t ++ [sbi])⟩
    | _, _ => { T with world := r.1 }

/-- A sequence of steps. -/
def Tally.steps (T : Tally) : List (Nat × Move) → Option Tally
  | [] => some T
  | (t, m) :: ms => (T.step w M cnt t m).bind fun T' => T'.steps ms

theorem Tally.step_world (T : Tally) (t : Nat) (m : Move) :
    (T.step w M cnt t m).map Tally.world = (T.world.step w t m).map Prod.fst := by
  simp only [Tally.step, Option.map_map]
  congr 1
  funext r
  split <;> rfl

/-- **A tally runs as its world does.** -/
theorem Tally.steps_world : ∀ (T : Tally) (ms : List (Nat × Move)),
    (T.steps w M cnt ms).map Tally.world = T.world.steps w ms
  | T, [] => rfl
  | T, (t, m) :: ms => by
    have h := T.step_world w M cnt t m
    simp only [Tally.steps, World.steps]
    cases hT : T.step w M cnt t m with
    | none =>
      rw [hT, Option.map_none', eq_comm, Option.map_eq_none'] at h
      simp [h]
    | some T' =>
      rw [hT, Option.map_some', eq_comm, Option.map_eq_some'] at h
      obtain ⟨r, hr, hr'⟩ := h
      simp only [Option.some_bind, hr]
      rw [hr']
      exact Tally.steps_world T' ms

theorem Tally.steps_cons {T T' : Tally} {t : Nat} {m : Move} (ms : List (Nat × Move))
    (h : T.step w M cnt t m = some T') : T.steps w M cnt ((t, m) :: ms) = T'.steps w M cnt ms := by
  simp only [Tally.steps, h, Option.some_bind]

theorem Tally.step_of_world {T : Tally} {t : Nat} {m : Move} {s' : World}
    (h : (T.world.step w t m).map Prod.fst = some s') (hc : m ≠ .count) (hr : m ≠ .countRelock) :
    T.step w M cnt t m = some { T with world := s' } := by
  obtain ⟨r, hr', rfl⟩ := Option.map_eq_some'.1 h
  cases m <;> simp_all [Tally.step]

theorem Tally.step_count {T : Tally} {t : Nat} (hidle : T.world.pc t = .idle) :
    T.step w M cnt t .count =
      some ⟨(T.world.countWalk t T.world.list.head?).1, Function.update T.count t 0,
        Function.update T.added t []⟩ := by
  simp [Tally.step, World.step, hidle]

theorem Tally.step_countRelock {T : Tally} {t x : Nat} (hpc : T.world.pc t = .countHeld x) :
    T.step w M cnt t .countRelock =
      some ⟨((T.world.release t x).countWalk t (nextOf T.world.list x)).1,
        Function.update T.count t (addCounts w M (cnt x) (T.count t)),
        Function.update T.added t (T.added t ++ [x])⟩ := by
  simp [Tally.step, World.step, hpc]

theorem Tally.steps_reach {T T' : Tally} {ms : List (Nat × Move)} (hT : World.Reach w T.world)
    (h : T.steps w M cnt ms = some T') : World.Reach w T'.world :=
  hT.steps w ms (by rw [← Tally.steps_world, h]; rfl)

theorem Tally.steps_append (T : Tally) (ms₁ ms₂ : List (Nat × Move)) :
    T.steps w M cnt (ms₁ ++ ms₂) = (T.steps w M cnt ms₁).bind fun T' => T'.steps w M cnt ms₂ := by
  induction ms₁ generalizing T with
  | nil => rfl
  | cons m ms ih =>
    simp only [List.cons_append, Tally.steps]
    cases T.step w M cnt m.1 m.2 <;> simp [ih]

/-! ## The total of every count -/

theorem countFold_append (tr : Nat → Bool) (A B : List Nat) (c : Nat) :
    countFold w M tr cnt (A ++ B) c = countFold w M tr cnt B (countFold w M tr cnt A c) := by
  induction A generalizing c with
  | nil => rfl
  | cons a A ih => exact ih _

/-- Each thread's total is what its call's records add up to. -/
def Tally.Summed (T : Tally) : Prop :=
  ∀ t, T.count t = countFold w M (fun _ => true) cnt (T.added t) 0

theorem Tally.init_summed : Tally.init.Summed w M cnt := fun _ => rfl

theorem Tally.Summed.step {T T' : Tally} {t : Nat} {m : Move} (h : T.Summed w M cnt)
    (hs : T.step w M cnt t m = some T') : T'.Summed w M cnt := by
  obtain ⟨r, -, rfl⟩ := Option.map_eq_some'.1 hs
  intro u
  split
  · by_cases hu : u = t
    · subst hu; simp [countFold]
    · simpa [hu] using h u
  · by_cases hu : u = t
    · subst hu; simp [countFold_append, ← h u, countFold]
    · simpa [hu] using h u
  · exact h u

/-- **The total of every count**, in every run from boot: the `unsigned long` sum of the counts
of the records its call has added. -/
theorem Tally.Summed.steps {T T' : Tally} (h : T.Summed w M cnt) :
    ∀ {ms : List (Nat × Move)}, T.steps w M cnt ms = some T' → T'.Summed w M cnt := by
  intro ms
  induction ms generalizing T with
  | nil => intro hs; cases hs; exact h
  | cons m ms ih =>
    intro hs
    obtain ⟨T₁, h₁, h₂⟩ := Option.bind_eq_some.1 hs
    exact ih (h.step w M cnt h₁) h₂

end

/-! ## A count that runs alone -/

section
variable {w M : Nat} {cnt : Nat → Counters} {t : Nat}

/-- From each walk on, a count that runs alone adds up the records after its cursor whose
`umount_mutex` is free, and ends with the world as it was. -/
theorem Tally.countWalk_pass (T : Tally) (hidle : T.world.pc t = .idle)
    (hnd : T.world.list.Nodup) : ∀ (B A : List Nat) (c : Nat) (L : List Nat),
      T.world.list = A ++ B →
      Tally.steps w M cnt ⟨(T.world.countWalk t B.head?).1, Function.update T.count t c,
          Function.update T.added t L⟩
        (List.replicate (B.countP fun x => (T.world.owner x).isNone) (t, .countRelock)) =
      some ⟨T.world,
        Function.update T.count t (countFold w M (fun x => (T.world.owner x).isNone) cnt B c),
        Function.update T.added t (L ++ B.filter fun x => (T.world.owner x).isNone)⟩
  | [], _, c, L, _ => by simp [World.countWalk, walkLocked, ← hidle, Tally.steps, countFold]
  | b :: B, A, c, L, hs => by
    have hnext : nextOf T.world.list b = B.head? := by
      rw [hs]; exact nextOf_of_nodup (hs ▸ hnd)
    by_cases hfree : T.world.owner b = none
    case neg =>
      -- a busy record: the walk steps past it under the lock
      have hbusy : (T.world.owner b).isSome := Option.ne_none_iff_isSome.1 hfree
      have hn : ¬(T.world.owner b).isNone := by simpa using hfree
      have hfuel := walkLocked_fuel hnd (fun x => (T.world.owner x).isSome) (fun _ => false)
        B (A ++ [b]) [] T.world.list.length (T.world.list.length + 1) B.head? (by simp [hs])
        (by simp) (by simp [hs]; omega) (by simp [hs]; omega) (.inl (by simp))
      have hw : (T.world.countWalk t (some b)).1 = (T.world.countWalk t B.head?).1 := by
        simp only [World.countWalk, walkLocked, hbusy, Bool.false_eq_true, if_false, if_true,
          hnext, hfuel]
        split <;> rfl
      rw [List.countP_cons_of_neg (fun x => (T.world.owner x).isNone) B hn,
        List.filter_cons_of_neg (p := fun x => (T.world.owner x).isNone) hn, List.head?_cons, hw]
      simpa [countFold, hbusy] using
        Tally.countWalk_pass T hidle hnd B (A ++ [b]) c L (by simp [hs])
    case pos =>
      -- a free record: the walk takes it, and the relock adds it and walks on
      have hn : (T.world.owner b).isNone := by simp [hfree]
      have hback : ({ T.world with
          owner := Function.update T.world.owner b (some t)
          pc := Function.update T.world.pc t (.countHeld b) } : World).release t b = T.world := by
        simp [World.release, ← hfree, ← hidle]
      rw [List.countP_cons_of_pos (fun x => (T.world.owner x).isNone) B hn, List.replicate_succ,
        List.filter_cons_of_pos (p := fun x => (T.world.owner x).isNone) hn]
      simpa [World.countWalk, walkLocked, hfree, Tally.steps, Tally.step, World.step, hback,
        hnext, countFold] using Tally.countWalk_pass T hidle hnd B (A ++ [b])
          (addCounts w M (cnt b) c) (L ++ [b]) (by simp [hs])

theorem Tally.steps_count_alone (T : Tally) (hidle : T.world.pc t = .idle)
    (hnd : T.world.list.Nodup) :
    T.steps w M cnt ((t, .count) ::
        List.replicate (T.world.list.countP fun x => (T.world.owner x).isNone) (t, .countRelock)) =
      some { T with
        count := Function.update T.count t
          (countFold w M (fun x => (T.world.owner x).isNone) cnt T.world.list 0)
        added := Function.update T.added t
          (T.world.list.filter fun x => (T.world.owner x).isNone) } := by
  simp only [Tally.steps, Tally.step, World.step, hidle, if_true, Option.map_some',
    Option.some_bind]
  exact T.countWalk_pass hidle hnd T.world.list [] 0 [] rfl

/-- **A count that runs alone is `f3fs_shrink_count`.**  From every reachable state in which
thread `t` is idle, and for every counters of the records: the sequential call on the same list,
with a trylock failing exactly on the records whose `umount_mutex` a thread holds, returns some
`c`; and thread `t` alone, starting a count and relocking once for each free record, ends with
`count = c`, having added exactly the free records in list order, with the world, every other
thread's total and every mutex as they were. -/
theorem Tally.count_solo (w M : Nat) (cnt : Nat → Counters) (T : Tally)
    (hs : World.Reach w T.world) (t : Nat) (hidle : T.world.pc t = .idle) :
    ∃ c, f3fsShrinkCount w M (fun x => (T.world.owner x).isNone) cnt T.world.list = some c ∧
      T.steps w M cnt ((t, .count) ::
          List.replicate (T.world.list.countP fun x => (T.world.owner x).isNone) (t, .countRelock)) =
        some { T with
          count := Function.update T.count t c
          added := Function.update T.added t (T.world.list.filter fun x => (T.world.owner x).isNone) } := by
  have hnd := hs.safe.nodup
  exact ⟨_, f3fsShrinkCount_eq w M _ cnt _ hnd, T.steps_count_alone hidle hnd⟩

/-- **The count is exact, and it changes nothing.**  On a duplicate-free list, whatever the
trylock outcomes, for counters whose `int` sum does not overflow and whose free-nid excess fits in
a `long`, with `MAX_FREE_NIDS ≤ 2 ^ (BITS_PER_LONG - 1)` and the exact total below
`2 ^ BITS_PER_LONG`, `f3fs_shrink_count` returns the exact sum over the records it can lock.  And
from every reachable state with that list, in which the trylock fails exactly on the records whose
`umount_mutex` a thread holds, thread `t` running the call alone ends with that total, with the
list in its order, every run id and every mutex as they were. -/
theorem shrinkCount_exact (w M : Nat) (cnt : Nat → Counters) (trylock : Nat → Bool)
    (l : List Nat) (hl : l.Nodup) (hw : 1 ≤ w) (hM : M ≤ 2 ^ (w - 1))
    (hc : ∀ sbi ∈ l, (cnt sbi).InRange w M) (hfit : countSum M trylock cnt l < 2 ^ w) :
    f3fsShrinkCount w M trylock cnt l = some (countSum M trylock cnt l) ∧
    ∀ (T : Tally) (t : Nat), World.Reach w T.world → T.world.pc t = .idle → T.world.list = l →
      (∀ x, trylock x = (T.world.owner x).isNone) →
      ∃ T', T.steps w M cnt ((t, .count) :: List.replicate (l.countP trylock) (t, .countRelock)) =
          some T' ∧ T'.world = T.world ∧ T'.count t = countSum M trylock cnt l := by
  have hsum := shrinkCount_sum trylock cnt l hl hw hM hc hfit
  refine ⟨hsum, fun T t hs hidle hlist htry => ?_⟩
  obtain rfl : trylock = fun x => (T.world.owner x).isNone := funext htry
  subst hlist
  have hfold := (f3fsShrinkCount_eq w M _ cnt _ hl).symm.trans hsum
  exact ⟨_, T.steps_count_alone hidle hs.safe.nodup, rfl, by simpa using Option.some.inj hfold⟩

end

theorem Tally.count_solo_busy :
    ∃ T, Tally.init.steps 64 3640 (fun _ => ⟨1, 2, 3, 3645⟩)
        [(2, .join 0), (2, .join 1), (3, .umountLock 0)] = some T ∧
      World.Reach 64 T.world ∧ T.world.pc 0 = .idle ∧
      ∃ c, f3fsShrinkCount 64 3640 (fun x => (T.world.owner x).isNone) (fun _ => ⟨1, 2, 3, 3645⟩)
          T.world.list = some c ∧
        T.steps 64 3640 (fun _ => ⟨1, 2, 3, 3645⟩) ((0, .count) ::
            List.replicate (T.world.list.countP fun x => (T.world.owner x).isNone)
              (0, .countRelock)) =
          some { T with
            count := Function.update T.count 0 c
            added := Function.update T.added 0
              (T.world.list.filter fun x => (T.world.owner x).isNone) } :=
  have hreach := Tally.steps_reach 64 3640 (fun _ => ⟨1, 2, 3, 3645⟩) World.Reach.init
    (show Tally.init.steps 64 3640 (fun _ => ⟨1, 2, 3, 3645⟩)
      [(2, .join 0), (2, .join 1), (3, .umountLock 0)] = some _ from rfl)
  ⟨_, rfl, hreach, rfl, Tally.count_solo 64 3640 _ _ hreach 0 rfl⟩

theorem shrinkCount_exact_pair :
    [0, 1].Nodup ∧ 1 ≤ 64 ∧ 3640 ≤ 2 ^ (64 - 1) ∧
      (∀ sbi ∈ [0, 1], ((fun _ => (⟨1, 2, 3, 3645⟩ : Counters)) sbi).InRange 64 3640) ∧
      countSum 3640 (fun _ => true) (fun _ => ⟨1, 2, 3, 3645⟩) [0, 1] < 2 ^ 64 ∧
      (f3fsShrinkCount 64 3640 (fun _ => true) (fun _ => ⟨1, 2, 3, 3645⟩) [0, 1] =
          some (countSum 3640 (fun _ => true) (fun _ => ⟨1, 2, 3, 3645⟩) [0, 1]) ∧
        ∀ (T : Tally) (t : Nat), World.Reach 64 T.world → T.world.pc t = .idle →
          T.world.list = [0, 1] → (∀ x, (fun _ => true) x = (T.world.owner x).isNone) →
          ∃ T', T.steps 64 3640 (fun _ => ⟨1, 2, 3, 3645⟩)
              ((t, .count) :: List.replicate ([0, 1].countP fun _ => true) (t, .countRelock)) =
              some T' ∧ T'.world = T.world ∧
            T'.count t = countSum 3640 (fun _ => true) (fun _ => ⟨1, 2, 3, 3645⟩) [0, 1]) :=
  have hc : ∀ sbi ∈ [0, 1], ((fun _ => (⟨1, 2, 3, 3645⟩ : Counters)) sbi).InRange 64 3640 := by
    simp [Counters.InRange]
  have hfit : countSum 3640 (fun _ => true) (fun _ => ⟨1, 2, 3, 3645⟩) [0, 1] < 2 ^ 64 := by
    simp [countSum, exactCount]
  ⟨by decide, by decide, by simp, hc, hfit,
    shrinkCount_exact 64 3640 _ _ _ (by decide) (by decide) (by simp) hc hfit⟩

/-! ## A count that scans keep going -/

/-- Records 0 and 1 join; thread 0 starts a count and takes record 0; thread 1 scans
(`nr_to_scan = 1`, nothing freed), steps past record 0 and serves record 1; thread 0 adds
record 0 and takes record 1. -/
def countStartMoves : List (Nat × Move) :=
  [(2, .join 0), (2, .join 1), (0, .count), (1, .scan 1), (1, .serve dryEnv), (1, .scanRelock),
    (0, .countRelock)]

/-- Thread 1 scans: it serves the first record, which the count has passed, and moves it to the
tail, behind the count's cursor; thread 0 adds the record it holds and takes that one. -/
def countRoundMoves : List (Nat × Move) :=
  [(1, .scan 1), (1, .serve dryEnv), (1, .scanRelock), (0, .countRelock)]

/-- `n` rounds. -/
def countSpinMoves : Nat → List (Nat × Move)
  | 0 => []
  | n + 1 => countRoundMoves ++ countSpinMoves n

/-- Count call 0 holds `h`, the tail of a list of two records whose other record `o` is free, and
no record carries a run id above the counter's. -/
structure Counting (T : Tally) (h o : Nat) : Prop where
  list : T.world.list = [o, h]
  ne : h ≠ o
  held : T.world.owner h = some 0
  free : T.world.owner o = none
  pc₀ : T.world.pc 0 = .countHeld h
  pc₁ : T.world.pc 1 = .idle
  mark : ∀ x, T.world.mark x ≤ T.world.runNo

section
variable (w M : Nat) (cnt : Nat → Counters)

theorem Counting.round {T : Tally} {h o : Nat} (hc : Counting T h o)
    (hr : T.world.runNo + 1 < 2 ^ 32) :
    ∃ T', T.steps w M cnt countRoundMoves = some T' ∧ Counting T' o h ∧
      T'.world.runNo = T.world.runNo + 1 ∧ T'.added 0 = T.added 0 ++ [h] := by
  obtain ⟨hl, hne, hheld, hfree, hpc₀, hpc₁, hmark⟩ := hc
  have hnext : nextRunNo T.world.runNo = T.world.runNo + 1 := nextRunNo_of_lt hr
  have hmo : T.world.mark o ≠ T.world.runNo + 1 := by have := hmark o; omega
  have hmh : T.world.mark h ≠ T.world.runNo + 1 := by have := hmark h; omega
  have hoh : nextOf [o, h] o = some h := nextOf_head o [h]
  have hho : nextOf [h, o] h = some o := nextOf_head h [o]
  -- thread 1 scans and takes `o`, the head
  rw [countRoundMoves,
    Tally.steps_cons w M cnt _ (Tally.step_of_world w M cnt (World.step_scan hpc₁)
      (by simp) (by simp)),
    World.scanWalk_of_some (x := o) (by simp [hl, walkLocked, hfree, hnext, hmo])]
  -- it serves `o`, frees nothing and moves it to the tail, behind the count's cursor; its walk
  -- steps past `h`, which the count holds, and stops at `o`, which now carries its run id
  rw [Tally.steps_cons w M cnt _ (Tally.step_of_world w M cnt (World.step_serve dryEnv (by rfl))
      (by simp) (by simp)), serve_dryEnv_freed w _ _ _ _ rfl,
    Tally.steps_cons w M cnt _ (Tally.step_of_world w M cnt
      (World.step_scanRelock (by rfl) Nat.one_pos) (by simp) (by simp)),
    World.scanWalk_of_none (by simp [hl, listMoveTail, World.release, walkLocked, hoh, hho, hheld,
      hnext, hmh, hne, hne.symm])]
  -- the count adds `h` and takes `o`
  rw [Tally.steps_cons w M cnt _
      (Tally.step_countRelock w M cnt (Eq.trans (by simp [World.release]) hpc₀)),
    World.countWalk_of_some (x := o) (by simp [hl, listMoveTail, World.release, walkLocked, hho,
      hne, hne.symm])]
  refine ⟨_, rfl, ⟨?_, hne.symm, ?_, ?_, ?_, ?_, fun x => ?_⟩, ?_, ?_⟩
  all_goals simp [World.release, listMoveTail, hl, hne, hne.symm, hnext, Function.update_apply]
  split_ifs
  · exact le_rfl
  · exact Nat.le_succ_of_le (hmark x)

theorem Counting.rounds : ∀ (n : Nat) {T : Tally} {h o : Nat}, Counting T h o →
    T.world.runNo + n < 2 ^ 32 →
    ∃ T' o', T.steps w M cnt (countSpinMoves n) = some T' ∧
      Counting T' (if n % 2 = 0 then h else o) o' ∧
      T'.added 0 = T.added 0 ++ (List.range n).map fun i => if i % 2 = 0 then h else o
  | 0, T, h, o, hc, _ => ⟨T, o, rfl, hc, by simp⟩
  | n + 1, T, h, o, hc, hn => by
    obtain ⟨T₁, h₁, hc₁, hr₁, ha₁⟩ := hc.round w M cnt (by omega)
    obtain ⟨T', o', h₂, hc', ha'⟩ := Counting.rounds n hc₁ (by omega)
    have hpar : ∀ i, (if i % 2 = 0 then o else h) = if (i + 1) % 2 = 0 then h else o := by
      intro i; split_ifs <;> first | rfl | omega
    refine ⟨T', o', by rw [countSpinMoves, Tally.steps_append, h₁]; exact h₂, ?_, ?_⟩
    · rwa [hpar] at hc'
    · rw [ha', ha₁, List.range_succ_eq_map, List.map_cons, List.map_map, List.append_assoc]
      simp only [Nat.zero_mod, if_true, List.singleton_append, Function.comp_def, hpar]

theorem Counting.last {T : Tally} {h o : Nat} (hc : Counting T h o) :
    ∃ T', T.step w M cnt 0 .countRelock = some T' ∧ T'.world.pc 0 = .idle ∧
      T'.added 0 = T.added 0 ++ [h] := by
  obtain ⟨hl, hne, -, -, hpc₀, -, -⟩ := hc
  simp [Tally.step, World.step, World.countWalk, walkLocked, World.release, nextOf, hl, hne.symm,
    hpc₀]

theorem countStartMoves_counting :
    ∃ T, Tally.init.steps w M cnt countStartMoves = some T ∧ Counting T 1 0 ∧
      T.world.runNo = 1 ∧ T.added 0 = [0] := by
  have h01 : nextOf [0, 1] 0 = some 1 := rfl
  -- records 0 and 1 join
  rw [countStartMoves, Tally.steps_cons w M cnt _ (Tally.step_of_world w M cnt
      (World.step_join (by rfl) (by simp [Tally.init, World.init])) (by simp) (by simp)),
    Tally.steps_cons w M cnt _ (Tally.step_of_world w M cnt
      (World.step_join (by rfl) (by simp [Tally.init, World.init, listAddTail]))
      (by simp) (by simp))]
  dsimp only [Tally.init, World.init, listAddTail, List.nil_append, List.singleton_append]
  -- thread 0 starts a count and takes record 0
  rw [Tally.steps_cons w M cnt _ (Tally.step_count w M cnt (by rfl)),
    World.countWalk_of_some (x := 0) (by simp [walkLocked])]
  dsimp only
  -- thread 1 scans: it steps past record 0, serves record 1 and ends at the tail
  rw [Tally.steps_cons w M cnt _ (Tally.step_of_world w M cnt (World.step_scan (by rfl))
      (by simp) (by simp)),
    World.scanWalk_of_some (x := 1) (by simp [walkLocked, nextRunNo, h01])]
  dsimp only
  rw [Tally.steps_cons w M cnt _ (Tally.step_of_world w M cnt (World.step_serve dryEnv (by rfl))
      (by simp) (by simp)), serve_dryEnv_freed w _ _ _ _ rfl,
    Tally.steps_cons w M cnt _ (Tally.step_of_world w M cnt
      (World.step_scanRelock (by rfl) Nat.one_pos) (by simp) (by simp)),
    World.scanWalk_of_none (by simp [nextOf])]
  dsimp only [World.release, listMoveTail]
  -- the count adds record 0 and takes record 1
  rw [Tally.steps_cons w M cnt _ (Tally.step_countRelock w M cnt (by rfl)),
    World.countWalk_of_some (x := 1) (by simp [World.release, walkLocked, h01])]
  refine ⟨_, rfl, ⟨?_, by decide, ?_, ?_, ?_, ?_, fun x => ?_⟩, ?_, ?_⟩
  all_goals simp [World.release, nextRunNo, Function.update_apply]
  split_ifs <;> omega

end

/-- **A count call that scans keep going.**  For every `n` short of the wrap of the run counter
and every counters of the records, there is an interleaving in which two records join and count
call 0 has added `n + 1` records, `0, 1, 0, 1, ...`, and still holds one; one more relock then
returns it, its total the sum of the counts of `n + 2` records of a list of two.  Scans serve
the record the count has passed and move it to the tail, ahead of its cursor. -/
theorem shrinkCount_unbounded (w M : Nat) (cnt : Nat → Counters) (n : Nat)
    (hn : n + 2 < 2 ^ 32) :
    ∃ T, Tally.init.steps w M cnt (countStartMoves ++ countSpinMoves n) = some T ∧
      World.Reach w T.world ∧ T.world.list.length = 2 ∧ (∃ x, T.world.pc 0 = .countHeld x) ∧
      T.added 0 = (List.range (n + 1)).map (· % 2) ∧
      ∃ T', T.step w M cnt 0 .countRelock = some T' ∧ T'.world.pc 0 = .idle ∧
        T'.added 0 = (List.range (n + 2)).map (· % 2) ∧
        T'.count 0 = countFold w M (fun _ => true) cnt (T'.added 0) 0 := by
  obtain ⟨T₀, h₀, hc₀, hr₀, ha₀⟩ := countStartMoves_counting w M cnt
  obtain ⟨T, o, h, hc, ha⟩ := hc₀.rounds w M cnt n (by omega)
  have hsteps : Tally.init.steps w M cnt (countStartMoves ++ countSpinMoves n) = some T := by
    rw [Tally.steps_append, h₀]; exact h
  have hsum := (Tally.init_summed w M cnt).steps w M cnt hsteps
  obtain ⟨T', h', hpc', ha'⟩ := hc.last w M cnt
  have hrange : ∀ k, (List.range (k + 1)).map (· % 2) =
      0 :: (List.range k).map fun i => if i % 2 = 0 then 1 else 0 := by
    intro k
    rw [List.range_succ_eq_map, List.map_cons, List.map_map]
    congr 1
    refine List.map_congr_left fun i _ => ?_
    simp only [Function.comp_apply]; split_ifs <;> omega
  refine ⟨T, hsteps, Tally.steps_reach w M cnt World.Reach.init hsteps, by simp [hc.list],
    ⟨_, hc.pc₀⟩, by rw [ha, ha₀, hrange]; rfl, T', h', hpc', ?_, ?_⟩
  · rw [ha', ha, ha₀, hrange, List.range_succ, List.map_append]
    simp
  · exact hsum.step w M cnt h' 0

theorem shrinkCount_unbounded_three :
    ∃ T, Tally.init.steps 64 3640 (fun _ => ⟨0, 0, 1, 0⟩) (countStartMoves ++ countSpinMoves 3) =
        some T ∧
      World.Reach 64 T.world ∧ T.world.list.length = 2 ∧ (∃ x, T.world.pc 0 = .countHeld x) ∧
      T.added 0 = (List.range (3 + 1)).map (· % 2) ∧
      ∃ T', T.step 64 3640 (fun _ => ⟨0, 0, 1, 0⟩) 0 .countRelock = some T' ∧
        T'.world.pc 0 = .idle ∧ T'.added 0 = (List.range (3 + 2)).map (· % 2) ∧
        T'.count 0 = countFold 64 3640 (fun _ => true) (fun _ => ⟨0, 0, 1, 0⟩) (T'.added 0) 0 :=
  shrinkCount_unbounded 64 3640 _ 3 (by decide)

end F3fs
