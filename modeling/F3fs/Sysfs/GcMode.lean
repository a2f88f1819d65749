import F3fs.Sysfs.Store

/-!
# The GC modes stay below `MAX_GC_MODE`

`sbi->gc_mode` indexes `gc_mode_names` in the show of `gc_urgent`; `sbi->gc_segment_mode`
indexes `gc_mode_names` and `gc_reclaimed_segs`.  Only the `gc_urgent`, `gc_idle` and
`gc_segment_mode` branches of `__sbi_store` write them, each with a mode below `MAX_GC_MODE`, and
no other read-write attribute's cell is one of them.

* `GcInRange`                 both modes below `MAX_GC_MODE`;
* `f3fsRwAttrs_gcCells`       the attributes whose cell is a GC mode are those three;
* `f3fsSbiStore_gcInRange`    a store on a read-write attribute is defined and keeps the modes
                              in range;
* `gcMode_inRange`            the same over every run of stores, after which every show but
                              `extension_list`'s is defined.
-/

namespace F3fs

/-- `sbi->gc_mode` and `sbi->gc_segment_mode` are below `MAX_GC_MODE`. -/
def GcInRange (k : Consts) (s : Sbi) : Prop :=
  s.mem gcModeLoc < k.gc.max ∧ s.mem gcSegmentModeLoc < k.gc.max

instance (k : Consts) (s : Sbi) : Decidable (GcInRange k s) :=
  inferInstanceAs (Decidable (_ ∧ _))

/-- The read-write attributes whose cell is a GC mode are `gc_idle`, `gc_urgent` and
`gc_segment_mode`, all three of `struct f3fs_sb_info`. -/
theorem f3fsRwAttrs_gcCells : ∀ a ∈ f3fsRwAttrs,
    a.elname = "gc_mode" ∨ a.elname = "gc_segment_mode" →
      a.structType = .f3fsSbi ∧
        (a.name = "gc_idle" ∨ a.name = "gc_urgent" ∨ a.name = "gc_segment_mode") := by
  decide

section
variable {k : Consts} {s : Sbi}

/-! ## Writes and the two modes -/

@[simp] theorem gcInRange_set {l : Loc} (h1 : l.elem ≠ "gc_mode")
    (h2 : l.elem ≠ "gc_segment_mode") (v : Nat) : GcInRange k (s.set l v) ↔ GcInRange k s := by
  have e1 : gcModeLoc ≠ l := fun he => h1 (by rw [← he]; rfl)
  have e2 : gcSegmentModeLoc ≠ l := fun he => h2 (by rw [← he]; rfl)
  simp only [GcInRange, Sbi.set_mem, Function.update_noteq e1, Function.update_noteq e2]

@[simp] theorem gcInRange_ext (x : ExtTable) : GcInRange k { s with ext := x } ↔ GcInRange k s :=
  Iff.rfl

@[simp] theorem gcInRange_iostat (f : Nat → Nat) :
    GcInRange k { s with iostat := f } ↔ GcInRange k s := Iff.rfl

theorem GcInRange.setGcMode (h : GcInRange k s) {v : Nat} (hv : v < k.gc.max) :
    GcInRange k (s.set gcModeLoc v) :=
  ⟨by simpa using hv, by rw [Sbi.set_mem, Function.update_noteq (by decide)]; exact h.2⟩

theorem GcInRange.setGcSegmentMode (h : GcInRange k s) {v : Nat} (hv : v < k.gc.max) :
    GcInRange k (s.set gcSegmentModeLoc v) :=
  ⟨by rw [Sbi.set_mem, Function.update_noteq (by decide)]; exact h.1, by simpa using hv⟩

theorem GcInRange.of_mem (h : GcInRange k s) {s' : Sbi} (he : s'.mem = s.mem) :
    GcInRange k s' := by
  unfold GcInRange; rw [he]; exact h

theorem GcInRange.wake (h : GcInRange k s) : GcInRange k (wakeGcThread s) := by
  unfold wakeGcThread; split_ifs <;> simp [gcWakeLoc, h]

/-! ## The branches of `__sbi_store` -/

theorem gcUrgentStore_gcInRange (h : GcInRange k s) (t count : Nat) :
    GcInRange k (gcUrgentStore k t count s).2 := by
  obtain ⟨h0, -, -, -, h4, h5, h6⟩ := k.gc.lt
  unfold gcUrgentStore
  split_ifs
  exacts [h.setGcMode h0, (h.setGcMode h4).wake, h.setGcMode h5, (h.setGcMode h6).wake, h]

theorem gcIdleStore_gcInRange (h : GcInRange k s) (t count : Nat) :
    GcInRange k (gcIdleStore k t count s).2 := by
  obtain ⟨h0, h1, h2, h3, -⟩ := k.gc.lt
  unfold gcIdleStore
  split_ifs
  exacts [h.setGcMode h1, h.setGcMode h2, h, h.setGcMode h3, h.setGcMode h0]

theorem gcSegmentModeStore_gcInRange (h : GcInRange k s) (t count : Nat) :
    GcInRange k (gcSegmentModeStore k t count s).2 := by
  unfold gcSegmentModeStore
  split_ifs with ht
  exacts [h.setGcSegmentMode ht, h]

theorem rangeStore_gcInRange (h : GcInRange k s) {l : Loc} (h1 : l.elem ≠ "gc_mode")
    (h2 : l.elem ≠ "gc_segment_mode") (lo hi t count : Nat) :
    GcInRange k (rangeStore lo hi l t count s).2 := by
  unfold rangeStore; split_ifs <;> simp [h, h1, h2]

theorem resetStore_gcInRange (h : GcInRange k s) {ls : List Loc}
    (hl : ∀ l ∈ ls, l.elem ≠ "gc_mode" ∧ l.elem ≠ "gc_segment_mode") (t count : Nat) :
    GcInRange k (resetStore ls t count s).2 := by
  unfold resetStore
  split_ifs
  · exact h
  · induction ls generalizing s with
    | nil => exact h
    | cons l ls ih =>
      have hl0 := hl l (List.mem_cons_self _ _)
      exact ih ((gcInRange_set hl0.1 hl0.2 0).2 h) fun l' h' => hl l' (List.mem_cons_of_mem _ h')

theorem reservedBlocksStore_gcInRange (h : GcInRange k s) {ui : Loc} (h1 : ui.elem ≠ "gc_mode")
    (h2 : ui.elem ≠ "gc_segment_mode") (t count : Nat) :
    GcInRange k (reservedBlocksStore ui t count s).2 := by
  unfold reservedBlocksStore; split_ifs <;> simp [h, h1, h2]

theorem discardGranularityStore_gcInRange (h : GcInRange k s) {ui : Loc}
    (h1 : ui.elem ≠ "gc_mode") (h2 : ui.elem ≠ "gc_segment_mode") (t count : Nat) :
    GcInRange k (discardGranularityStore k ui t count s).2 := by
  unfold discardGranularityStore; split_ifs <;> simp [h, h1, h2]

theorem iostatEnableStore_gcInRange (h : GcInRange k s) (e : StoreEnv) (t count : Nat) :
    GcInRange k (iostatEnableStore e t count s).2 := by
  unfold iostatEnableStore
  split_ifs <;> simpa [GcInRange, gcModeLoc, gcSegmentModeLoc, sbiLoc, Function.update_apply] using h

theorem storeValue_gcInRange (h : GcInRange k s) {a : F3fsAttr} {ui : Loc}
    (hui : ui.elem = "gc_mode" ∨ ui.elem = "gc_segment_mode" →
      a.structType = .f3fsSbi ∧
        (a.name = "gc_idle" ∨ a.name = "gc_urgent" ∨ a.name = "gc_segment_mode"))
    (e : StoreEnv) (t count : Nat) :
    ∃ r, storeValue k e a ui t count s = some r ∧ GcInRange k r.2 := by
  by_cases hg : a.structType = .f3fsSbi ∧
      (a.name = "gc_idle" ∨ a.name = "gc_urgent" ∨ a.name = "gc_segment_mode")
  case pos =>
    obtain ⟨hst, hn | hn | hn⟩ := hg <;>
      simp only [storeValue, hst, hn, reduceCtorEq, false_and, if_false, String.reduceEq,
        if_true, Option.some.injEq, exists_eq_left', and_false, or_false, false_or]
    exacts [gcIdleStore_gcInRange h t count, gcUrgentStore_gcInRange h t count,
      gcSegmentModeStore_gcInRange h t count]
  case neg =>
    have h1 : ui.elem ≠ "gc_mode" := fun he => hg (hui (.inl he))
    have h2 : ui.elem ≠ "gc_segment_mode" := fun he => hg (hui (.inr he))
    unfold storeValue
    repeat' refine (iteInduction
      (motive := fun x => ∃ r : Int × Sbi, x = some r ∧ GcInRange k r.2) (fun _ => ?_) (fun _ => ?_))
    all_goals first
      | exact absurd h.2 ‹_›
      | refine ⟨_, rfl, ?_⟩
    -- one entry per branch, in the order of lines 453-655
    exacts [h, h, reservedBlocksStore_gcInRange h h1 h2 t count,
      discardGranularityStore_gcInRange h h1 h2 t count, h, h, gcUrgentStore_gcInRange h t count,
      gcIdleStore_gcInRange h t count, by simp [gcUrgentHighRemainingStore, h],
      iostatEnableStore_gcInRange h e t count, rangeStore_gcInRange h (by simp) (by simp) _ _ t count,
      resetStore_gcInRange h (by simp) t count, resetStore_gcInRange h (by simp) t count,
      rangeStore_gcInRange h (by simp) (by simp) _ _ t count,
      rangeStore_gcInRange h (by simp) (by simp) _ _ t count, gcSegmentModeStore_gcInRange h t count,
      h, by simp [gcReclaimedSegsLoc, h],
      rangeStore_gcInRange h (by simp) (by simp) _ _ t count,
      rangeStore_gcInRange h (by simp) (by simp) _ _ t count,
      rangeStore_gcInRange h (by simp) (by simp) _ _ t count,
      resetStore_gcInRange h (by simp) t count, resetStore_gcInRange h (by simp) t count,
      resetStore_gcInRange h (by simp) t count, by simp [h, h1, h2]]

theorem ckptThreadIoprioStore_gcInRange (h : GcInRange k s) (e : StoreEnv) (buf : List Char)
    (count : Nat) : GcInRange k (ckptThreadIoprioStore k e buf count s).2 := by
  unfold ckptThreadIoprioStore
  dsimp only
  repeat' split
  all_goals simp [ckptThreadIoprioLoc, h]

/-! ## Stores and shows -/

theorem sbiStore_gcInRange (h : GcInRange k s) {a : F3fsAttr} (ha : a ∈ f3fsRwAttrs)
    (e : StoreEnv) (buf : List Char) (count : Nat) :
    ∃ r, sbiStore k e a buf count s = some r ∧ GcInRange k r.2 := by
  unfold sbiStore
  split
  · exact ⟨_, rfl, h⟩
  · dsimp only
    split_ifs
    · exact ⟨_, rfl, h.of_mem (extensionListStore_mem k e buf count s)⟩
    · exact ⟨_, rfl, ckptThreadIoprioStore_gcInRange h e buf count⟩
    · exact ⟨_, rfl, h⟩
    · exact storeValue_gcInRange h (f3fsRwAttrs_gcCells a ha) e _ count

theorem f3fsSbiStore_gcInRange (h : GcInRange k s) {a : F3fsAttr} (ha : a ∈ f3fsRwAttrs)
    (e : StoreEnv) (buf : List Char) (count : Nat) :
    ∃ r, f3fsSbiStore k e a buf count s = some r ∧ GcInRange k r.2 := by
  unfold f3fsSbiStore
  split_ifs
  · exact ⟨_, rfl, h⟩
  · exact sbiStore_gcInRange h ha e buf count

theorem storeRun_gcInRange :
    ∀ (cs : List (StoreEnv × F3fsAttr × List Char × Nat)) (s : Sbi), GcInRange k s →
      (∀ c ∈ cs, c.2.1 ∈ f3fsRwAttrs) → ∃ s', storeRun k s cs = some s' ∧ GcInRange k s'
  | [], s, h, _ => ⟨s, rfl, h⟩
  | (e, a, buf, count) :: cs, s, h, ha => by
    obtain ⟨r, hr, h'⟩ := f3fsSbiStore_gcInRange h (ha _ (List.mem_cons_self _ _)) e buf count
    obtain ⟨s', hs', h''⟩ := storeRun_gcInRange cs r.2 h' fun c hc => ha c (List.mem_cons_of_mem _ hc)
    exact ⟨s', by simp [storeRun, hr, hs'], h''⟩

theorem f3fsSbiShow_isSome (h : GcInRange k s) {a : F3fsAttr} (ha : a.name ≠ "extension_list") :
    (f3fsSbiShow k a s).isSome := by
  unfold f3fsSbiShow
  split
  · rfl
  · repeat' refine (iteInduction (motive := fun x : Option (Except Int String) => x.isSome = true)
      (fun _ => ?_) (fun _ => ?_))
    all_goals first
      | exact absurd ‹_› ha
      | exact absurd h.2 ‹_›
      | rfl
      | simp [gcModeName, h.1, h.2]

end

/-- **The GC modes stay below `MAX_GC_MODE`.**  The read-write attributes whose cell is a GC mode
are `gc_idle`, `gc_urgent` and `gc_segment_mode`, which never reach the generic write.  From an
instance whose modes are in range, every sequence of `f3fs_sbi_store` calls on read-write
attributes, whatever the buffers and whatever the helpers outside sysfs.c return, is defined (no
access out of bounds), keeps both modes in range, and ends where every show but
`extension_list`'s is defined. -/
theorem gcMode_inRange (k : Consts) (s : Sbi) (hs : GcInRange k s)
    (cs : List (StoreEnv × F3fsAttr × List Char × Nat)) (ha : ∀ c ∈ cs, c.2.1 ∈ f3fsRwAttrs) :
    (∀ a ∈ f3fsRwAttrs, a.elname = "gc_mode" ∨ a.elname = "gc_segment_mode" →
      a.name = "gc_idle" ∨ a.name = "gc_urgent" ∨ a.name = "gc_segment_mode") ∧
    ∃ s', storeRun k s cs = some s' ∧ GcInRange k s' ∧
      ∀ a : F3fsAttr, a.name ≠ "extension_list" → (f3fsSbiShow k a s').isSome := by
  obtain ⟨s', hrun, h'⟩ := storeRun_gcInRange cs s hs ha
  exact ⟨fun a ha' he => (f3fsRwAttrs_gcCells a ha' he).2, s', hrun, h',
    fun a ha' => f3fsSbiShow_isSome h' ha'⟩

theorem gcMode_inRange_urgent :
    GcInRange mainlineConsts Sbi.zero ∧
    ((∀ a ∈ f3fsRwAttrs, a.elname = "gc_mode" ∨ a.elname = "gc_segment_mode" →
      a.name = "gc_idle" ∨ a.name = "gc_urgent" ∨ a.name = "gc_segment_mode") ∧
    ∃ s', storeRun mainlineConsts Sbi.zero
        [(⟨true, fun _ => (0, 1), fun _ => (0, 0), fun x _ _ _ => (0, x), 0, id, fun _ => 0⟩,
            rwAttr .f3fsSbi "f3fs_sb_info" "gc_urgent" "gc_mode", "1".toList, 1),
          (⟨true, fun _ => (0, 6), fun _ => (0, 0), fun x _ _ _ => (0, x), 0, id, fun _ => 0⟩,
            rwAttr .f3fsSbi "f3fs_sb_info" "gc_segment_mode" "gc_segment_mode", "6".toList, 1)] =
        some s' ∧ GcInRange mainlineConsts s' ∧
      ∀ a : F3fsAttr, a.name ≠ "extension_list" → (f3fsSbiShow mainlineConsts a s').isSome) :=
  have hs : GcInRange mainlineConsts Sbi.zero := by decide
  ⟨hs, gcMode_inRange mainlineConsts Sbi.zero hs _ (by decide)⟩

end F3fs
