import F3fs.Concurrent.Revisit

/-!
# A scan that other scans keep going

A scan stops at a record that carries its run id, or once `freed ≥ nr`.  While it runs, other
scans can stamp the record behind its cursor with their own run ids and leave it at the tail.
With two records, a scan that frees nothing then never meets its own run id: each other scan
buys it one more record.  So one `f3fs_shrink_scan` call does work not bounded by the size of
the list (`shrinkScan_unbounded`), up to the wrap of the 32-bit run counter.

* `Spinning s h o`     scan call 0 (thread 0, run id 1, nothing freed) holds `h`, the first of
                       the two records, and `o`, behind it, carries run id 1;
* `roundMoves`         thread 1 scans once and serves `o`; thread 0 serves `h` and takes `o`;
* `Spinning.round`     one round swaps the two records and logs one more processing by call 0;
* `shrinkScan_unbounded`   any number of rounds.
-/

namespace F3fs

/-- Scan call 0 holds `h`, the first of the two records, and the other, `o`, carries its run id;
the run id the next scan draws is not the one `h` carries. -/
structure Spinning (s : World) (h o : Nat) : Prop where
  list : s.list = [h, o]
  ne : h ≠ o
  held : s.owner h = some 0
  free : s.owner o = none
  pc₀ : s.pc 0 = .scanHeld 0 1 1 0 h
  pc₁ : s.pc 1 = .idle
  mark : s.mark o = 1
  stale : s.mark h ≠ nextRunNo s.runNo

/-- Records 0 and 1 join; scan call 0 (`nr_to_scan = 1`) serves record 0 and takes record 1. -/
def startMoves : List (Nat × Move) :=
  [(2, .join 0), (2, .join 1), (0, .scan 1), (0, .serve dryEnv), (0, .scanRelock)]

/-- Thread 1 scans: it steps past the record thread 0 holds and serves the other one; thread 0
serves its record, moves it to the tail and takes the other one. -/
def roundMoves : List (Nat × Move) :=
  [(1, .scan 1), (1, .serve dryEnv), (1, .scanRelock), (0, .serve dryEnv), (0, .scanRelock)]

/-- `n` rounds. -/
def spinMoves : Nat → List (Nat × Move)
  | 0 => []
  | n + 1 => roundMoves ++ spinMoves n

theorem nextRunNo_ne_self (c : Nat) : nextRunNo c ≠ c := by
  simp only [nextRunNo]; split <;> omega

theorem startMoves_spinning (w : Nat) :
    ∃ s, World.init.steps w startMoves = some s ∧ Spinning s 1 0 ∧ s.runNo = 1 ∧ s.calls = 1 ∧
      s.hist = [(0, 0)] := by
  -- records 0 and 1 join
  rw [startMoves, World.steps_cons _ (World.step_join (by rfl) (by simp [World.init])),
    World.steps_cons _ (World.step_join (by rfl) (by simp [World.init, listAddTail]))]
  dsimp only [World.init, listAddTail, List.nil_append, List.singleton_append]
  -- call 0 takes record 0, serves it and takes record 1
  rw [World.steps_cons _ (World.step_scan (by rfl)),
    World.scanWalk_of_some (x := 0) (by simp [walkLocked, nextRunNo])]
  dsimp only
  rw [World.steps_cons _ (World.step_serve dryEnv (by rfl)), serve_dryEnv_freed w _ _ _ _ rfl,
    World.steps_cons _ (World.step_scanRelock (by rfl) Nat.one_pos),
    World.scanWalk_of_some (x := 1)
      (by simp [World.release, listMoveTail, walkLocked, nextOf, nextRunNo])]
  refine ⟨_, rfl, ⟨?_, by decide, ?_, ?_, ?_, ?_, ?_, ?_⟩, ?_, ?_, ?_⟩ <;>
    simp [World.release, listMoveTail, nextRunNo]

/-- **One round.**  With a run id for thread 1's scan other than 1, the two records swap, call 0
holds the other one, and the log gains thread 1's processing and one more by call 0. -/
theorem Spinning.round {w : Nat} {s : World} {h o : Nat} (hs : Spinning s h o)
    (hr : nextRunNo s.runNo ≠ 1) :
    ∃ s', s.steps w roundMoves = some s' ∧ Spinning s' o h ∧ s'.runNo = nextRunNo s.runNo ∧
      s'.calls = s.calls + 1 ∧ s'.hist = s.hist ++ [(s.calls, o), (0, h)] := by
  obtain ⟨hl, hne, hheld, hfree, hpc₀, hpc₁, hmo, hstale⟩ := hs
  have hho : nextOf [h, o] h = some o := nextOf_head h [o]
  have hoh : nextOf [h, o] o = none := by simp [nextOf, hne]
  -- thread 1 scans: it steps past `h`, which thread 0 holds, and takes `o`
  rw [roundMoves, World.steps_cons _ (World.step_scan hpc₁), World.scanWalk_of_some (x := o)
    (by simp [hl, walkLocked, hheld, hstale, hfree, hmo, hr.symm, hho])]
  -- it serves `o`, frees nothing, and ends at the tail
  rw [World.steps_cons _ (World.step_serve dryEnv (by rfl)), serve_dryEnv_freed w _ _ _ _ rfl,
    World.steps_cons _ (World.step_scanRelock (by rfl) Nat.one_pos),
    World.scanWalk_of_none (by simp [hl, hoh])]
  -- thread 0 serves `h`, moves it to the tail and takes `o`
  rw [World.steps_cons _ (World.step_serve dryEnv (Eq.trans (by simp [World.release]) hpc₀)),
    serve_dryEnv_freed w _ _ _ _ rfl,
    World.steps_cons _ (World.step_scanRelock (by rfl) Nat.one_pos),
    World.scanWalk_of_some (x := o)
      (by simp [hl, listMoveTail, World.release, walkLocked, hho, hne, hne.symm, hr])]
  refine ⟨_, rfl, ⟨?_, hne.symm, ?_, ?_, ?_, ?_, ?_, ?_⟩, rfl, rfl, by simp [World.release]⟩ <;>
    simp [World.release, listMoveTail, hl, hne, hne.symm, (nextRunNo_ne_self _).symm]

theorem Spinning.rounds {w : Nat} : ∀ (n : Nat) {s : World} {h o : Nat}, Spinning s h o →
    1 ≤ s.runNo → s.runNo + n < 2 ^ 32 → 1 ≤ s.calls →
    ∃ s' h' o', s.steps w (spinMoves n) = some s' ∧ Spinning s' h' o' ∧
      s'.hist.countP (·.1 = 0) = s.hist.countP (·.1 = 0) + n
  | 0, s, h, o, hs, _, _, _ => ⟨s, h, o, rfl, hs, rfl⟩
  | n + 1, s, h, o, hs, h1, hn, hc => by
    have hnext : nextRunNo s.runNo = s.runNo + 1 := nextRunNo_of_lt (by omega)
    obtain ⟨s₁, h₁, hs₁, hr₁, hc₁, hh₁⟩ := hs.round (w := w) (by omega)
    obtain ⟨s', h', o', h₂, hs', hh'⟩ := Spinning.rounds n hs₁ (by omega) (by omega) (by omega)
    refine ⟨s', h', o', by rw [spinMoves, World.steps_append, h₁]; exact h₂, hs', ?_⟩
    have hcalls : s.calls ≠ 0 := by omega
    simp [hh', hh₁, List.countP_append, hcalls]
    omega

/-- **A scan call that other scans keep going.**  For every `n` short of the wrap of the run
counter there is an interleaving in which two records join and scan call 0 (`nr_to_scan = 1`,
every shrink call freeing nothing) has processed `n + 1` records, more than the list holds once
`n ≥ 2`, and still holds one: other scans, each stamping the record behind its cursor, keep it
from meeting its own run id. -/
theorem shrinkScan_unbounded (w n : Nat) (hn : n + 2 < 2 ^ 32) :
    ∃ s, World.init.steps w (startMoves ++ spinMoves n) = some s ∧ World.Reach w s ∧
      s.list.length = 2 ∧ (∃ x, s.pc 0 = .scanHeld 0 1 1 0 x) ∧
      s.hist.countP (·.1 = 0) = n + 1 := by
  obtain ⟨s₀, h₀, hs₀, hr₀, hc₀, hh₀⟩ := startMoves_spinning w
  obtain ⟨s, h, o, hst, hs, hcount⟩ := hs₀.rounds (w := w) n (by omega) (by omega) (by omega)
  have hsteps : World.init.steps w (startMoves ++ spinMoves n) = some s := by
    rw [World.steps_append, h₀]; exact hst
  exact ⟨s, hsteps, World.Reach.init.steps w _ hsteps, by simp [hs.list], ⟨h, hs.pc₀⟩,
    by simp [hcount, hh₀, Nat.add_comm]⟩

theorem shrinkScan_unbounded_five :
    ∃ s, World.init.steps 64 (startMoves ++ spinMoves 5) = some s ∧ World.Reach 64 s ∧
      s.list.length = 2 ∧ (∃ x, s.pc 0 = .scanHeld 0 1 1 0 x) ∧
      s.hist.countP (·.1 = 0) = 5 + 1 :=
  shrinkScan_unbounded 64 5 (by decide)

end F3fs
