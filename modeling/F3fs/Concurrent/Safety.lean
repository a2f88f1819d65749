import F3fs.Concurrent.World

/-!
# Registry safety under every interleaving

`World.Safe` holds at boot and every step keeps it (`World.Safe.step`), so it holds in every
reachable state.  It says:

* the list has no duplicate and holds exactly the records joined and not yet left;
* a scan or count cursor parked while the list lock is dropped stands at a record on the list,
  whose `umount_mutex` the thread holds;
* each `umount_mutex` is held by the thread whose place says so, and by no other.

The cursor's record cannot leave: `f3fs_leave_shrinker` runs only under the record's
`umount_mutex`.  Every record a step of a scan or a count reads or writes is then on the list
when it does (`shrinkerSafe`).
-/

namespace F3fs

theorem Pc.held_of_cursor {p : Pc} {x : Nat} (h : p.cursor = some x) : p.held = some x := by
  cases p <;> simp_all [Pc.cursor, Pc.held]

/-- The safety invariant. -/
structure World.Safe (s : World) : Prop where
  nodup : s.list.Nodup
  live : ∀ x, x ∈ s.list ↔ s.live x = true
  cursor : ∀ t x, (s.pc t).cursor = some x → x ∈ s.list
  held : ∀ t x, (s.pc t).held = some x → s.owner x = some t
  owner : ∀ t x, s.owner x = some t → (s.pc t).held = some x

theorem World.init_safe : World.init.Safe :=
  ⟨List.nodup_nil, by simp [World.init], by simp [World.init, Pc.cursor],
    by simp [World.init, Pc.held], by simp [World.init]⟩

theorem walkLocked_mem {l : List Nat} (hl : l.Nodup) (busy stop : Nat → Bool) :
    ∀ (fuel : Nat) {p : Option Nat}, (∀ x, p = some x → x ∈ l) →
      (∀ x ∈ (walkLocked l busy stop fuel p).2, x ∈ l) ∧
      ∀ x, (walkLocked l busy stop fuel p).1 = some x → x ∈ l ∧ busy x = false ∧ stop x = false
  | 0, _, _ => by simp [walkLocked]
  | fuel + 1, none, _ => by simp [walkLocked]
  | fuel + 1, some sbi, hp => by
    have hs := hp sbi rfl
    simp only [walkLocked]
    split
    · simp [hs]
    split
    · have ih := walkLocked_mem hl busy stop fuel (fun x hx => nextOf_mem hl hs hx)
      exact ⟨by simpa [hs] using ih.1, ih.2⟩
    · simp_all

section
variable {s : World} {t : Nat}

theorem World.Safe.relist (h : s.Safe) {l : List Nat} {live : Nat → Bool} (hl : l.Nodup)
    (hlive : ∀ x, x ∈ l ↔ live x = true) (hc : ∀ t x, (s.pc t).cursor = some x → x ∈ l) :
    ({ s with list := l, live := live } : World).Safe :=
  ⟨hl, hlive, hc, h.held, h.owner⟩

theorem World.Safe.take (h : s.Safe) (ht : s.pc t = .idle) {x : Nat} (hfree : s.owner x = none)
    {q : Pc} (hq : q.held = some x) (hqc : ∀ y, q.cursor = some y → y ∈ s.list) :
    ({ s with owner := Function.update s.owner x (some t),
              pc := Function.update s.pc t q } : World).Safe := by
  refine ⟨h.nodup, h.live, fun u y hy => ?_, fun u y hy => ?_, fun u y hy => ?_⟩ <;>
    dsimp only at hy ⊢
  · by_cases hu : u = t
    · subst hu; exact hqc y (by simpa using hy)
    · exact h.cursor u y (by simpa [Function.update_noteq hu] using hy)
  · by_cases hu : u = t
    · subst hu
      obtain rfl : x = y := by simpa [hq] using hy
      simp
    · rw [Function.update_noteq hu] at hy
      have hyx : y ≠ x := by rintro rfl; rw [h.held u y hy] at hfree; cases hfree
      rw [Function.update_noteq hyx]; exact h.held u y hy
  · by_cases hyx : y = x
    · subst hyx
      have : u = t := by simpa using hy.symm
      subst this; simpa using hq
    · rw [Function.update_noteq hyx] at hy
      have hu : u ≠ t := fun he => by simpa [he, ht, Pc.held] using h.owner u y hy
      rw [Function.update_noteq hu]; exact h.owner u y hy

theorem World.Safe.release (h : s.Safe) {x : Nat} (hx : (s.pc t).held = some x) :
    (s.release t x).Safe := by
  refine ⟨h.nodup, h.live, fun u y hy => ?_, fun u y hy => ?_, fun u y hy => ?_⟩
  · by_cases hu : u = t
    · subst hu; simp [World.release, Pc.cursor] at hy
    · exact h.cursor u y (by simpa [World.release, Function.update_noteq hu] using hy)
  · by_cases hu : u = t
    · subst hu; simp [World.release, Pc.held] at hy
    · simp only [World.release, Function.update_noteq hu] at hy ⊢
      have hyx : y ≠ x := fun he => hu (Option.some.inj ((h.held u y hy).symm.trans
        (he ▸ h.held t x hx)))
      simp [Function.update_noteq hyx, h.held u y hy]
  · by_cases hyx : y = x
    · subst hyx; simp [World.release] at hy
    · simp only [World.release, Function.update_noteq hyx] at hy
      have hu : u ≠ t := fun he => hyx (Option.some.inj ((h.owner u y hy).symm.trans
        (he ▸ hx)))
      simpa [World.release, Function.update_noteq hu] using h.owner u y hy

theorem World.Safe.scanWalk (h : s.Safe) (ht : s.pc t = .idle) {p : Option Nat}
    (hp : ∀ x, p = some x → x ∈ s.list) (c nr a f : Nat) :
    (s.scanWalk t c nr a f p).1.Safe ∧ ∀ x ∈ (s.scanWalk t c nr a f p).2, x ∈ s.list := by
  obtain ⟨hv, hr⟩ := walkLocked_mem h.nodup (fun x => (s.owner x).isSome) (fun x => s.mark x = a)
    (s.list.length + 1) hp
  simp only [World.scanWalk]
  split
  · rw [← ht, Function.update_eq_self]; exact ⟨h, hv⟩
  · rename_i sbi hsbi
    obtain ⟨hm, hb, -⟩ := hr sbi hsbi
    exact ⟨h.take ht (by simpa using hb) rfl (by simp [Pc.cursor, hm]), hv⟩

theorem World.Safe.countWalk (h : s.Safe) (ht : s.pc t = .idle) {p : Option Nat}
    (hp : ∀ x, p = some x → x ∈ s.list) :
    (s.countWalk t p).1.Safe ∧ ∀ x ∈ (s.countWalk t p).2, x ∈ s.list := by
  obtain ⟨hv, hr⟩ := walkLocked_mem h.nodup (fun x => (s.owner x).isSome) (fun _ => false)
    (s.list.length + 1) hp
  simp only [World.countWalk]
  split
  · rw [← ht, Function.update_eq_self]; exact ⟨h, hv⟩
  · rename_i sbi hsbi
    obtain ⟨hm, hb, -⟩ := hr sbi hsbi
    exact ⟨h.take ht (by simpa using hb) rfl (by simp [Pc.cursor, hm]), hv⟩

theorem World.Safe.repc (h : s.Safe) {q : Pc} (hh : q.held = (s.pc t).held)
    (hc : q.cursor = (s.pc t).cursor) (mark : Nat → Nat) (hist : List (Nat × Nat)) :
    ({ s with mark := mark, pc := Function.update s.pc t q, hist := hist } : World).Safe := by
  refine ⟨h.nodup, h.live, fun u y hy => ?_, fun u y hy => ?_, fun u y hy => ?_⟩ <;>
    dsimp only at hy ⊢
  · by_cases hu : u = t
    · subst hu; exact h.cursor u y (by simpa [hc] using hy)
    · exact h.cursor u y (by simpa [Function.update_noteq hu] using hy)
  · by_cases hu : u = t
    · subst hu; exact h.held u y (by simpa [hh] using hy)
    · exact h.held u y (by simpa [Function.update_noteq hu] using hy)
  · by_cases hu : u = t
    · subst hu; simpa [hh] using h.owner u y hy
    · simpa [Function.update_noteq hu] using h.owner u y hy

/-- **Every step keeps the invariant**, and every record it reads or writes is on the list. -/
theorem World.Safe.step {w : Nat} {s' : World} {v : List Nat} (h : s.Safe) {m : Move}
    (hs : s.step w t m = some (s', v)) : s'.Safe ∧ ∀ x ∈ v, x ∈ s.list := by
  cases m with
  | scan nr =>
    simp only [World.step] at hs
    split at hs
    · have h' : ({ s with runNo := nextRunNo s.runNo, calls := s.calls + 1 } : World).Safe :=
        ⟨h.nodup, h.live, h.cursor, h.held, h.owner⟩
      have := h'.scanWalk ‹_› (fun x hx => List.mem_of_mem_head? hx) s.calls nr (nextRunNo s.runNo) 0
      rwa [Option.some.inj hs] at this
    · cases hs
  | serve e =>
    simp only [World.step] at hs
    split at hs <;> cases hs
    rename_i c nr a f sbi hpc
    have hsbi := h.cursor t sbi (by simp [hpc, Pc.cursor])
    exact ⟨h.repc (by simp [hpc, Pc.held]) (by simp [hpc, Pc.cursor]) _ _, by simpa using hsbi⟩
  | scanRelock =>
    simp only [World.step] at hs
    split at hs
    · rename_i c nr a f sbi hpc
      have hsbi := h.cursor t sbi (by simp [hpc, Pc.cursor])
      have hmove : ({ s with list := listMoveTail s.list sbi } : World).Safe :=
        h.relist (listMoveTail_nodup h.nodup hsbi) (fun x => by simpa [hsbi] using h.live x)
          (fun u x hx => by simpa [hsbi] using h.cursor u x hx)
      have hrel := hmove.release (t := t) (x := sbi) (by simp [hpc, Pc.held])
      split at hs
      · cases hs; exact ⟨hrel, by simpa using hsbi⟩
      · cases hs
        obtain ⟨hs', hv⟩ := hrel.scanWalk (t := t) (by simp [World.release])
          (fun x hx => by simpa [World.release, hsbi] using nextOf_mem h.nodup hsbi hx) c nr a f
        exact ⟨hs', by simpa [hsbi, World.release] using hv⟩
    · cases hs
  | count =>
    simp only [World.step] at hs
    split at hs
    · have := h.countWalk ‹_› (fun x hx => List.mem_of_mem_head? hx)
      rwa [Option.some.inj hs] at this
    · cases hs
  | countRelock =>
    simp only [World.step] at hs
    split at hs <;> cases hs
    rename_i sbi hpc
    have hsbi := h.cursor t sbi (by simp [hpc, Pc.cursor])
    obtain ⟨hs', hv⟩ := (h.release (t := t) (x := sbi) (by simp [hpc, Pc.held])).countWalk
      (t := t) (by simp [World.release]) (fun x hx => nextOf_mem h.nodup hsbi hx)
    exact ⟨hs', by simpa [hsbi, World.release] using hv⟩
  | join sbi =>
    simp only [World.step] at hs
    split at hs
    · rename_i hj
      cases hs
      refine ⟨h.relist (List.nodup_append.mpr ⟨h.nodup, List.nodup_singleton sbi,
        by simpa using hj.2⟩) (fun x => ?_) (fun u x hx => by simp [listAddTail, h.cursor u x hx]),
        by simp⟩
      by_cases hx : x = sbi
      · subst hx; simp [listAddTail]
      · simp [hx, listAddTail, h.live x]
    · cases hs
  | umountLock sbi =>
    simp only [World.step] at hs
    split at hs
    · rename_i hl
      cases hs
      exact ⟨h.take hl.1 hl.2 rfl (by simp [Pc.cursor]), by simp⟩
    · cases hs
  | leave =>
    simp only [World.step] at hs
    split at hs <;> cases hs
    rename_i sbi hpc
    have hown := h.held t sbi (by simp [hpc, Pc.held])
    refine ⟨h.relist (h.nodup.erase sbi) (fun x => ?_) (fun u x hx => ?_), by simp⟩
    · by_cases hx : x = sbi
      · subst hx; simp [listDelInit, h.nodup.not_mem_erase]
      · simp [hx, listDelInit, List.mem_erase_of_ne hx, h.live x]
    · have hxs : x ≠ sbi := by
        rintro rfl
        have hu : u = t := by simpa using (h.held u x (Pc.held_of_cursor hx)).symm.trans hown
        subst hu; simp [hpc, Pc.cursor] at hx
      simpa [listDelInit, List.mem_erase_of_ne hxs] using h.cursor u x hx
  | umountUnlock =>
    simp only [World.step] at hs
    split at hs <;> cases hs
    rename_i sbi hpc
    exact ⟨h.release (by simp [hpc, Pc.held]), by simp⟩

end

theorem World.Reach.safe {w : Nat} {s : World} (hs : World.Reach w s) : s.Safe := by
  induction hs with
  | init => exact World.init_safe
  | step t m _ hstep ih => exact (ih.step hstep).1

/-- **Registry safety** (shrinker.c, lines 37-138).  In every interleaving of scans, counts,
joins of unregistered records and leaves by the holder of the record's `umount_mutex`:
* `f3fs_list` has no duplicate and holds exactly the records joined and not yet left;
* a parked scan or count cursor stands at a record on the list whose `umount_mutex` the thread
  holds, and its `p->next` is the head or a record on the list;
* every record a step of a scan or a count reads or writes (trylock, stamp, shrink, count,
  `list_move_tail`) is on the list when it does, so none that has left and not joined again. -/
theorem shrinkerSafe (w : Nat) (s : World) (hs : World.Reach w s) :
    s.list.Nodup ∧ (∀ x, x ∈ s.list ↔ s.live x = true) ∧
    (∀ t x, (s.pc t).cursor = some x →
      x ∈ s.list ∧ s.owner x = some t ∧ ∀ y, nextOf s.list x = some y → y ∈ s.list) ∧
    ∀ t m s' v, s.step w t m = some (s', v) → ∀ x ∈ v, x ∈ s.list := by
  have h := hs.safe
  refine ⟨h.nodup, h.live, fun t x hx => ?_, fun t m s' v hstep => (h.step hstep).2⟩
  have hm := h.cursor t x hx
  exact ⟨hm, h.held t x (Pc.held_of_cursor hx), fun y hy => nextOf_mem h.nodup hm hy⟩

theorem shrinkerSafe_held :
    ∃ s, World.init.steps 64 [(0, .join 0), (1, .scan 1)] = some s ∧
      s.list.Nodup ∧ (∀ x, x ∈ s.list ↔ s.live x = true) ∧
      (∀ t x, (s.pc t).cursor = some x →
        x ∈ s.list ∧ s.owner x = some t ∧ ∀ y, nextOf s.list x = some y → y ∈ s.list) ∧
      ∀ t m s' v, s.step 64 t m = some (s', v) → ∀ x ∈ v, x ∈ s.list := by
  obtain ⟨s, hs⟩ : ∃ s, World.init.steps 64 [(0, .join 0), (1, .scan 1)] = some s := ⟨_, rfl⟩
  exact ⟨s, hs, shrinkerSafe 64 s (World.Reach.init.steps 64 _ hs)⟩

end F3fs
