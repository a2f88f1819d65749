import F3fs.Concurrent.Revisit

/-!
# The run counter under every interleaving

`f3fs_shrink_scan` draws its run id under the list lock (lines 84-86), so scans that run at once
draw one after the other.  As long as fewer than `2 ^ 32 - 1` scan calls have started, the
counter has counted them exactly, scan call `c` runs with run id `c + 1`, and no record carries a
run id the counter has not reached.  So the run id a scan draws is on no record, and two scans
running at once have different run ids: what `shrinkRunNo_fresh` says of sequential runs holds
of every interleaving.

* `World.Fresh`           the invariant, while fewer than `2 ^ 32` scans have started;
* `World.Fresh.frame`     a step that leaves the counter, the marks and every run id alone;
* `World.Fresh.start`, `World.Fresh.serve`   a scan that starts, and one that stamps a record;
* `World.Fresh.step`      every step keeps it;
* `World.runNo_fresh`     in every interleaving.
-/

namespace F3fs

/-- While fewer than `2 ^ 32` scan calls have started: the counter counts them, no record
carries a run id above it, and scan call `c` runs with run id `c + 1`. -/
def World.Fresh (s : World) : Prop :=
  s.calls < 2 ^ 32 → s.runNo = s.calls ∧ (∀ x, s.mark x ≤ s.runNo) ∧
    ∀ t c a, (s.pc t).scanCall = some (c, a) → a = c + 1

theorem World.init_fresh : World.init.Fresh := fun _ =>
  ⟨rfl, fun _ => le_rfl, fun _ _ _ h => by simp [World.init, Pc.scanCall] at h⟩

theorem World.scanWalk_fields (s : World) (t c nr a f : Nat) (p : Option Nat) :
    (s.scanWalk t c nr a f p).1.runNo = s.runNo ∧ (s.scanWalk t c nr a f p).1.calls = s.calls ∧
      (s.scanWalk t c nr a f p).1.mark = s.mark ∧
      (∀ u, u ≠ t → (s.scanWalk t c nr a f p).1.pc u = s.pc u) ∧
      ((s.scanWalk t c nr a f p).1.pc t).scanCall ∈ [none, some (c, a)] := by
  simp only [World.scanWalk]
  split <;> exact ⟨rfl, rfl, rfl, fun u hu => Function.update_noteq hu _ _, by simp [Pc.scanCall]⟩

theorem World.countWalk_fields (s : World) (t : Nat) (p : Option Nat) :
    (s.countWalk t p).1.runNo = s.runNo ∧ (s.countWalk t p).1.calls = s.calls ∧
      (s.countWalk t p).1.mark = s.mark ∧
      (∀ u, u ≠ t → (s.countWalk t p).1.pc u = s.pc u) ∧ ((s.countWalk t p).1.pc t).scanCall = none := by
  simp only [World.countWalk]
  split <;> exact ⟨rfl, rfl, rfl, fun u hu => Function.update_noteq hu _ _, by simp [Pc.scanCall]⟩

section
variable {s s' : World} {t : Nat}

/-- A step that leaves the counter, the number of scans and the marks alone, and gives no thread
a run id it did not run with. -/
theorem World.Fresh.frame (h : s.Fresh) (hr : s'.runNo = s.runNo) (hc : s'.calls = s.calls)
    (hm : s'.mark = s.mark)
    (hpc : ∀ u c a, (s'.pc u).scanCall = some (c, a) → (s.pc u).scanCall = some (c, a)) :
    s'.Fresh := by
  intro hlt
  obtain ⟨h₁, h₂, h₃⟩ := h (hc ▸ hlt)
  exact ⟨by rw [hr, hc, h₁], fun x => hm ▸ hr ▸ h₂ x, fun u c a hca => h₃ u c a (hpc u c a hca)⟩

theorem World.Fresh.move (h : s.Fresh) (hr : s'.runNo = s.runNo) (hc : s'.calls = s.calls)
    (hm : s'.mark = s.mark) (hu : ∀ u, u ≠ t → s'.pc u = s.pc u)
    (ht : (s'.pc t).scanCall = none ∨ (s'.pc t).scanCall = (s.pc t).scanCall) : s'.Fresh :=
  h.frame hr hc hm fun u c a hca => by
    by_cases hut : u = t
    · subst hut; rcases ht with ht | ht <;> rw [ht] at hca
      · cases hca
      · exact hca
    · rwa [hu u hut] at hca

/-- Lines 82-86: a scan draws the next run id and counts itself. -/
theorem World.Fresh.start (h : s.Fresh) (hidle : s.pc t = .idle) (nr : Nat) :
    (({ s with runNo := nextRunNo s.runNo, calls := s.calls + 1 } : World).scanWalk t s.calls nr
      (nextRunNo s.runNo) 0 s.list.head?).1.Fresh := by
  obtain ⟨hr, hc, hm, hu, ht⟩ := World.scanWalk_fields
    ({ s with runNo := nextRunNo s.runNo, calls := s.calls + 1 } : World) t s.calls nr
    (nextRunNo s.runNo) 0 s.list.head?
  dsimp only at hr hc hm hu
  intro hlt
  rw [hc] at hlt
  obtain ⟨h₁, h₂, h₃⟩ := h (by omega)
  have hnext : nextRunNo s.runNo = s.runNo + 1 := nextRunNo_of_lt (by omega)
  refine ⟨by rw [hr, hc, hnext, h₁], fun x => ?_, fun u c a hca => ?_⟩
  · rw [hm, hr]; simp only [hnext]; exact Nat.le_succ_of_le (h₂ x)
  · by_cases hut : u = t
    · subst hut
      simp only [List.mem_cons, List.mem_singleton, List.not_mem_nil, or_false] at ht
      rcases ht with ht | ht <;> rw [ht] at hca <;> cases hca
      rw [hnext, h₁]
    · exact h₃ u c a (by rwa [hu u hut] at hca)

/-- Line 100: the scan holding `x` stamps it with its run id, which the counter has reached. -/
theorem World.Fresh.serve (h : s.Fresh) (hcalls : s.Calls) {c nr a f f' x : Nat}
    (hpc : s.pc t = .scanHeld c nr a f x) :
    ({ s with mark := Function.update s.mark x a,
              pc := Function.update s.pc t (.scanServed c nr a f' x),
              hist := s.hist ++ [(c, x)] } : World).Fresh := by
  have hcall : (s.pc t).scanCall = some (c, a) := by simp [hpc, Pc.scanCall]
  intro hlt
  obtain ⟨h₁, h₂, h₃⟩ := h hlt
  have ha : a = c + 1 := h₃ t c a hcall
  have hc : c < s.calls := hcalls.active t c a hcall
  refine ⟨h₁, fun y => ?_, fun u c' a' hca => h₃ u c' a' ?_⟩
  · by_cases hyx : y = x
    · subst hyx; simp only [Function.update_same]; omega
    · simpa [Function.update_noteq hyx] using h₂ y
  · by_cases hut : u = t
    · subst hut
      simp only [Function.update_same, Pc.scanCall, Option.some.injEq, Prod.mk.injEq] at hca
      obtain ⟨rfl, rfl⟩ := hca
      exact hcall
    · simpa [Function.update_noteq hut] using hca

/-- **Every step keeps `World.Fresh`.** -/
theorem World.Fresh.step {w : Nat} {v : List Nat} (h : s.Fresh) (hcalls : s.Calls) {m : Move}
    (hs : s.step w t m = some (s', v)) : s'.Fresh := by
  have hs' : ∀ {X : World × List Nat}, some X = some (s', v) → s' = X.1 :=
    fun hX => (congrArg Prod.fst (Option.some.inj hX)).symm
  have hupd : ∀ (q : Pc) u, u ≠ t → Function.update s.pc t q u = s.pc u :=
    fun q u hu => Function.update_noteq hu q s.pc
  cases m with
  | scan nr =>
    simp only [World.step] at hs
    split at hs
    · rw [hs' hs]; exact h.start ‹_› nr
    · cases hs
  | serve e =>
    simp only [World.step] at hs
    split at hs <;> cases hs
    rw [serve_mark]
    exact h.serve hcalls ‹_›
  | scanRelock =>
    simp only [World.step] at hs
    split at hs
    · rename_i c nr a f x hpc
      have hrel : (({ s with list := listMoveTail s.list x } : World).release t x).Fresh :=
        h.move (t := t) rfl rfl rfl (fun u hu => by simp [World.release, hupd _ u hu])
          (.inl (by simp [World.release, Pc.scanCall]))
      split at hs
      · cases hs; exact hrel
      · rw [hs' hs]
        obtain ⟨hr, hc, hm, hu, ht⟩ := World.scanWalk_fields
          (({ s with list := listMoveTail s.list x } : World).release t x) t c nr a f
          (nextOf s.list x)
        refine h.move (by simpa [World.release] using hr) (by simpa [World.release] using hc)
          (by simpa [World.release] using hm)
          (fun u hu' => by rw [hu u hu']; simp [World.release, hupd _ u hu']) ?_
        simp only [List.mem_cons, List.mem_singleton, List.not_mem_nil, or_false] at ht
        rcases ht with ht | ht
        · exact .inl ht
        · exact .inr (by rw [ht, hpc]; rfl)
    · cases hs
  | count =>
    simp only [World.step] at hs
    split at hs
    · rw [hs' hs]
      obtain ⟨hr, hc, hm, hu, ht⟩ := World.countWalk_fields s t s.list.head?
      exact h.move hr hc hm hu (.inl ht)
    · cases hs
  | countRelock =>
    simp only [World.step] at hs
    split at hs <;> cases hs
    obtain ⟨hr, hc, hm, hu, ht⟩ := World.countWalk_fields (s.release t ‹_›) t (nextOf s.list ‹_›)
    exact h.move hr hc hm (fun u hu' => by rw [hu u hu']; simp [World.release, hupd _ u hu'])
      (.inl ht)
  | join sbi =>
    simp only [World.step] at hs
    split at hs
    · cases hs; exact h.move (t := t) rfl rfl rfl (fun _ _ => rfl) (.inr rfl)
    · cases hs
  | umountLock sbi =>
    simp only [World.step] at hs
    split at hs
    · cases hs
      exact h.move (t := t) rfl rfl rfl (fun u hu => hupd _ u hu) (.inl (by simp [Pc.scanCall]))
    · cases hs
  | leave =>
    simp only [World.step] at hs
    split at hs <;> cases hs
    exact h.move (t := t) rfl rfl rfl (fun _ _ => rfl) (.inr rfl)
  | umountUnlock =>
    simp only [World.step] at hs
    split at hs <;> cases hs
    exact h.move (t := t) rfl rfl rfl (fun u hu => by simp [World.release, hupd _ u hu])
      (.inl (by simp [World.release, Pc.scanCall]))

end

theorem World.Reach.fresh {w : Nat} {s : World} (hs : World.Reach w s) : s.Fresh := by
  induction hs with
  | init => exact World.init_fresh
  | step t m hr hstep ih => exact ih.step hr.calls hstep

/-- **Fresh run ids under every interleaving.**  In every interleaving in which fewer than
`2 ^ 32 - 1` scan calls have started, the run counter equals the number of scan calls, the run id
the next scan draws is carried by no record, and two scans running at once have the same run id
only when they are the same call. -/
theorem World.runNo_fresh (w : Nat) (s : World) (hs : World.Reach w s) (hc : s.calls + 1 < 2 ^ 32) :
    s.runNo = s.calls ∧ (∀ x, s.mark x < nextRunNo s.runNo) ∧
      ∀ t u c d a b, (s.pc t).scanCall = some (c, a) → (s.pc u).scanCall = some (d, b) →
        (a = b ↔ c = d) := by
  obtain ⟨h₁, h₂, h₃⟩ := hs.fresh (by omega)
  refine ⟨h₁, fun x => ?_, fun t u c d a b ht hu => ?_⟩
  · rw [nextRunNo_of_lt (by omega)]; exact Nat.lt_succ_of_le (h₂ x)
  · rw [h₃ t c a ht, h₃ u d b hu]; omega

theorem World.runNo_fresh_two :
    ∃ s, World.init.steps 64 [(2, .join 0), (2, .join 1), (0, .scan 1), (1, .scan 1)] = some s ∧
      s.calls + 1 < 2 ^ 32 ∧ s.runNo = s.calls ∧ (∀ x, s.mark x < nextRunNo s.runNo) ∧
      ∀ t u c d a b, (s.pc t).scanCall = some (c, a) → (s.pc u).scanCall = some (d, b) →
        (a = b ↔ c = d) :=
  ⟨_, rfl, by decide, World.runNo_fresh 64 _ (World.Reach.init.steps 64
    [(2, .join 0), (2, .join 1), (0, .scan 1), (1, .scan 1)] rfl) (by decide)⟩

end F3fs
