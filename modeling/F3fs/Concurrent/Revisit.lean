import F3fs.Concurrent.Safety

/-!
# When a scan meets a record twice

A scan stops its walk at a record that carries its run id (line 90), and it stamps each record
it processes with that id (line 100).  Between its critical sections other scans run: one can
process a record the first scan has processed, stamp it with its own run id and move it behind
the first scan's cursor.  The first scan then meets it again without a stop and processes it a
second time (`shrinkScan_twice`).  That is the only way: a scan call processes a record twice
only if another call processed it in between (`shrinkScan_revisit`).

The ghost log `World.hist` lists every processing as (scan call, record).

* `Quiet hist c x`   after some processing of `x` by call `c`, no other call processed `x`;
* `World.Calls`      what holds of the log in every reachable state: a quiet record carries the
                     call's run id, a record a scan holds is not quiet for it, and every second
                     processing by a call has one by another call before it.
-/

namespace F3fs

/-- After one of its processings of `x`, call `c` is the only call that processed `x`. -/
def Quiet (hist : List (Nat × Nat)) (c x : Nat) : Prop :=
  ∃ i : Nat, hist[i]? = some (c, x) ∧ ∀ k c' : Nat, i < k → hist[k]? = some (c', x) → c' = c

/-- The call and run id of a scan, between its critical sections. -/
def Pc.scanCall : Pc → Option (Nat × Nat)
  | .scanHeld c _ a _ _ | .scanServed c _ a _ _ => some (c, a)
  | _ => none

theorem getElem?_append_single {l : List (Nat × Nat)} {e a : Nat × Nat} {k : Nat}
    (h : (l ++ [e])[k]? = some a) : (k < l.length ∧ l[k]? = some a) ∨ (k = l.length ∧ a = e) := by
  rcases Nat.lt_or_ge k l.length with hk | hk
  · exact .inl ⟨hk, by rwa [List.getElem?_append_left hk] at h⟩
  · rw [List.getElem?_append_right hk] at h
    cases hd : k - l.length with
    | zero => rw [hd] at h; exact .inr ⟨by omega, by simpa using h.symm⟩
    | succ n => rw [hd] at h; simp at h

theorem quiet_append_ne {hist : List (Nat × Nat)} {c c' x y : Nat} (hxy : y ≠ x) :
    Quiet (hist ++ [(c', x)]) c y ↔ Quiet hist c y := by
  constructor
  · rintro ⟨i, hi, hk⟩
    rcases getElem?_append_single hi with ⟨hil, hi⟩ | ⟨-, he⟩
    · refine ⟨i, hi, fun k c'' hik hkc => hk k c'' hik ?_⟩
      rwa [List.getElem?_append_left (List.getElem?_eq_some_iff.mp hkc).1]
    · simp only [Prod.mk.injEq] at he; exact absurd he.2 hxy
  · rintro ⟨i, hi, hk⟩
    refine ⟨i, by rwa [List.getElem?_append_left (List.getElem?_eq_some_iff.mp hi).1], ?_⟩
    intro k c'' hik hkc
    rcases getElem?_append_single hkc with ⟨-, hkc⟩ | ⟨-, he⟩
    · exact hk k c'' hik hkc
    · simp only [Prod.mk.injEq] at he; exact absurd he.2 hxy

theorem not_quiet_append {hist : List (Nat × Nat)} {c c' x : Nat} (hc : c' ≠ c) :
    ¬ Quiet (hist ++ [(c', x)]) c x := by
  rintro ⟨i, hi, hk⟩
  rcases getElem?_append_single hi with ⟨hil, -⟩ | ⟨-, he⟩
  · exact hc (hk hist.length c' hil (List.getElem?_concat_length _ _))
  · simp only [Prod.mk.injEq] at he; exact hc he.1.symm

/-- What the log says in every reachable state. -/
structure World.Calls (s : World) : Prop where
  lt : ∀ e ∈ s.hist, e.1 < s.calls
  active : ∀ t c a, (s.pc t).scanCall = some (c, a) → c < s.calls
  distinct : ∀ t u c a b, (s.pc t).scanCall = some (c, a) → (s.pc u).scanCall = some (c, b) → t = u
  quiet : ∀ t c a x, (s.pc t).scanCall = some (c, a) → Quiet s.hist c x → s.mark x = a
  held : ∀ t c nr a f x, s.pc t = .scanHeld c nr a f x → ¬ Quiet s.hist c x
  revisit : ∀ i j c x : Nat, i < j → s.hist[i]? = some (c, x) → s.hist[j]? = some (c, x) →
    ∃ k c' : Nat, i < k ∧ k < j ∧ c' ≠ c ∧ s.hist[k]? = some (c', x)

theorem World.init_calls : World.init.Calls :=
  ⟨by simp [World.init], by simp [World.init, Pc.scanCall], by simp [World.init, Pc.scanCall],
    by simp [World.init, Pc.scanCall], by simp [World.init],
    by simp [World.init]⟩

theorem World.scanWalk_eq {s : World} (hl : s.list.Nodup) {p : Option Nat}
    (hp : ∀ x, p = some x → x ∈ s.list) (t c nr a f : Nat) :
    (s.scanWalk t c nr a f p).1 = { s with pc := Function.update s.pc t .idle } ∨
      ∃ y, s.mark y ≠ a ∧ (s.scanWalk t c nr a f p).1 =
        { s with owner := Function.update s.owner y (some t),
                 pc := Function.update s.pc t (.scanHeld c nr a f y) } := by
  obtain ⟨-, hr⟩ := walkLocked_mem hl (fun x => (s.owner x).isSome) (fun x => s.mark x = a)
    (s.list.length + 1) hp
  simp only [World.scanWalk]
  split
  · exact .inl rfl
  · rename_i y hy
    exact .inr ⟨y, by simpa using (hr y hy).2.2, rfl⟩

section
variable {s s' : World} {t : Nat}

theorem World.Calls.quit (h : s.Calls) (hh : s'.hist = s.hist) (hm : s'.mark = s.mark)
    (hc : s.calls ≤ s'.calls) (hu : ∀ u, u ≠ t → s'.pc u = s.pc u)
    (ht : (s'.pc t).scanCall = none) : s'.Calls := by
  have hsc : ∀ u c a, (s'.pc u).scanCall = some (c, a) → (s.pc u).scanCall = some (c, a) :=
    fun u c a hca => by
      by_cases hut : u = t
      · subst hut; simp [ht] at hca
      · rwa [hu u hut] at hca
  refine ⟨fun e he => ?_, fun u c a hca => ?_, fun u v c a b hu hv => ?_, fun u c a x hca => ?_,
    fun u c nr a f x hux => ?_, ?_⟩ <;> rw [hh] at *
  · exact Nat.lt_of_lt_of_le (h.lt e he) hc
  · exact Nat.lt_of_lt_of_le (h.active u c a (hsc u c a hca)) hc
  · exact h.distinct u v c a b (hsc u c a hu) (hsc v c b hv)
  · rw [hm]; exact h.quiet u c a x (hsc u c a hca)
  · by_cases hut : u = t
    · subst hut; simp [hux, Pc.scanCall] at ht
    · exact h.held u c nr a f x (by rwa [hu u hut] at hux)
  · exact h.revisit

theorem World.Calls.next (h : s.Calls) (hh : s'.hist = s.hist) (hm : s'.mark = s.mark)
    (hc : s.calls ≤ s'.calls) (hu : ∀ u, u ≠ t → s'.pc u = s.pc u) {c nr a f y : Nat}
    (ht : s'.pc t = .scanHeld c nr a f y) (hcall : (s.pc t).scanCall = some (c, a))
    (hy : s.mark y ≠ a) : s'.Calls := by
  have hsc : ∀ u c a, (s'.pc u).scanCall = some (c, a) → (s.pc u).scanCall = some (c, a) :=
    fun u c' a' hca => by
      by_cases hut : u = t
      · subst hut; simp only [ht, Pc.scanCall] at hca; rwa [← hca]
      · rwa [hu u hut] at hca
  refine ⟨fun e he => ?_, fun u c a hca => ?_, fun u v c a b hu hv => ?_, fun u c a x hca => ?_,
    fun u c' nr' a' f' x hux => ?_, ?_⟩ <;> rw [hh] at *
  · exact Nat.lt_of_lt_of_le (h.lt e he) hc
  · exact Nat.lt_of_lt_of_le (h.active u c a (hsc u c a hca)) hc
  · exact h.distinct u v c a b (hsc u c a hu) (hsc v c b hv)
  · rw [hm]; exact h.quiet u c a x (hsc u c a hca)
  · by_cases hut : u = t
    · subst hut
      rw [ht] at hux
      cases hux
      exact fun hq => hy (h.quiet u c a y hcall hq)
    · exact h.held u c' nr' a' f' x (by rwa [hu u hut] at hux)
  · exact h.revisit

theorem World.Calls.start (h : s.Calls) (hh : s'.hist = s.hist) (hm : s'.mark = s.mark)
    (hc : s'.calls = s.calls + 1) (hu : ∀ u, u ≠ t → s'.pc u = s.pc u) {nr a f y : Nat}
    (ht : s'.pc t = .scanHeld s.calls nr a f y) : s'.Calls := by
  have hfresh : ∀ x, ¬ Quiet s.hist s.calls x := fun x ⟨i, hi, _⟩ =>
    Nat.lt_irrefl _ (h.lt _ (List.getElem?_mem hi))
  have hsc : ∀ u c a, u ≠ t → (s'.pc u).scanCall = some (c, a) → (s.pc u).scanCall = some (c, a) :=
    fun u c a hut hca => by rwa [hu u hut] at hca
  have htc : (s'.pc t).scanCall = some (s.calls, a) := by simp [ht, Pc.scanCall]
  refine ⟨fun e he => ?_, fun u c a hca => ?_, fun u v c a b hu' hv => ?_, fun u c a x hca => ?_,
    fun u c' nr' a' f' x hux => ?_, ?_⟩ <;> rw [hh] at * <;> rw [hc] at *
  · exact Nat.lt_succ_of_lt (h.lt e he)
  · by_cases hut : u = t
    · subst hut; rw [htc] at hca; cases hca; exact Nat.lt_succ_self _
    · exact Nat.lt_succ_of_lt (h.active u c a (hsc u c a hut hca))
  · by_cases hut : u = t <;> by_cases hvt : v = t
    · rw [hut, hvt]
    · subst hut; rw [htc] at hu'; cases hu'
      exact absurd (h.active v _ b (hsc v _ b hvt hv)) (Nat.lt_irrefl _)
    · subst hvt; rw [htc] at hv; cases hv
      exact absurd (h.active u _ a (hsc u _ a hut hu')) (Nat.lt_irrefl _)
    · exact h.distinct u v c a b (hsc u c a hut hu') (hsc v c b hvt hv)
  · by_cases hut : u = t
    · subst hut; rw [htc] at hca; cases hca; exact fun hq => absurd hq (hfresh x)
    · rw [hm]; exact h.quiet u c a x (hsc u c a hut hca)
  · by_cases hut : u = t
    · subst hut; rw [ht] at hux; cases hux; exact hfresh _
    · exact h.held u c' nr' a' f' x (by rwa [hu u hut] at hux)
  · exact h.revisit

theorem World.Calls.serve (h : s.Calls) (hsafe : s.Safe) {c nr a f f' x : Nat}
    (hpc : s.pc t = .scanHeld c nr a f x) :
    ({ s with mark := Function.update s.mark x a,
              pc := Function.update s.pc t (.scanServed c nr a f' x),
              hist := s.hist ++ [(c, x)] } : World).Calls := by
  have hcall : (s.pc t).scanCall = some (c, a) := by simp [hpc, Pc.scanCall]
  have hsc : ∀ u, (Function.update s.pc t (.scanServed c nr a f' x) u).scanCall = (s.pc u).scanCall :=
    fun u => by
      by_cases hut : u = t
      · subst hut; simp [hpc, Pc.scanCall]
      · rw [Function.update_noteq hut]
  refine ⟨fun e he => ?_, fun u c' a' hca => ?_, fun u v c' a' b hu hv => ?_,
    fun u c' a' y hca hq => ?_, fun u c' nr' a' f'' y hux => ?_, fun i j c' y hij hi hj => ?_⟩ <;>
    dsimp only at *
  · rcases List.mem_append.mp he with he | he
    · exact h.lt e he
    · simp only [List.mem_singleton] at he; subst he; exact h.active t c a hcall
  · rw [hsc] at hca; exact h.active u c' a' hca
  · rw [hsc] at hu hv; exact h.distinct u v c' a' b hu hv
  · rw [hsc] at hca
    by_cases hyx : y = x
    · subst hyx
      by_cases hut : u = t
      · subst hut; rw [hcall] at hca; cases hca; simp
      · have hcc : c' ≠ c := fun he => hut (h.distinct u t c' a' a hca (he ▸ hcall))
        exact absurd hq (not_quiet_append (Ne.symm hcc))
    · rw [Function.update_noteq hyx]
      exact h.quiet u c' a' y hca ((quiet_append_ne hyx).mp hq)
  · have hut : u ≠ t := by rintro rfl; simp at hux
    rw [Function.update_noteq hut] at hux
    have hyx : y ≠ x := by
      rintro rfl
      have := (hsafe.held u y (by simp [hux, Pc.held])).symm.trans
        (hsafe.held t y (by simp [hpc, Pc.held]))
      exact hut (Option.some.inj this)
    rw [quiet_append_ne hyx]
    exact h.held u c' nr' a' f'' y hux
  · rcases getElem?_append_single hj with ⟨hjl, hj⟩ | ⟨rfl, he⟩
    · obtain ⟨k, c'', hik, hkj, hne, hk⟩ :=
        h.revisit i j c' y hij (by rwa [List.getElem?_append_left (by omega)] at hi) hj
      exact ⟨k, c'', hik, hkj, hne, by rwa [List.getElem?_append_left (by omega)]⟩
    · simp only [Prod.mk.injEq] at he
      obtain ⟨rfl, rfl⟩ := he
      rw [List.getElem?_append_left hij] at hi
      have hnq := h.held t c' nr a f y hpc
      simp only [Quiet, not_exists, not_and, not_forall] at hnq
      obtain ⟨k, c'', hik, hk, hne⟩ := hnq i hi
      exact ⟨k, c'', hik, (List.getElem?_eq_some_iff.mp hk).1, hne,
        by rwa [List.getElem?_append_left (List.getElem?_eq_some_iff.mp hk).1]⟩

theorem World.Calls.release (h : s.Calls) (x : Nat) : (s.release t x).Calls :=
  h.quit (t := t) rfl rfl le_rfl (fun u hu => by simp [World.release, Function.update_noteq hu])
    (by simp [World.release, Pc.scanCall])

theorem World.Calls.countWalk (h : s.Calls) (p : Option Nat) : (s.countWalk t p).1.Calls := by
  simp only [World.countWalk]
  split <;> exact h.quit (t := t) rfl rfl le_rfl
    (fun u hu => by simp [Function.update_noteq hu]) (by simp [Pc.scanCall])

theorem World.Calls.step {w : Nat} {v : List Nat} (h : s.Calls) (hsafe : s.Safe) {m : Move}
    (hs : s.step w t m = some (s', v)) : s'.Calls := by
  have hs' : ∀ {X : World × List Nat}, some X = some (s', v) → s' = X.1 :=
    fun hX => (congrArg Prod.fst (Option.some.inj hX)).symm
  cases m with
  | scan nr =>
    simp only [World.step] at hs
    split at hs
    · rcases World.scanWalk_eq (s := { s with runNo := nextRunNo s.runNo, calls := s.calls + 1 })
        hsafe.nodup (fun x hx => List.mem_of_mem_head? hx) t s.calls nr (nextRunNo s.runNo) 0
        with he | ⟨y, -, he⟩ <;> rw [hs' hs, he]
      · exact h.quit (t := t) rfl rfl (Nat.le_succ _)
          (fun u hu => by simp [Function.update_noteq hu]) (by simp [Pc.scanCall])
      · exact h.start (t := t) rfl rfl rfl (fun u hu => by simp [Function.update_noteq hu])
          (Function.update_same _ _ _)
    · cases hs
  | serve e =>
    simp only [World.step] at hs
    split at hs <;> cases hs
    rename_i c nr a f x hpc
    rw [serve_mark]
    exact h.serve hsafe hpc
  | scanRelock =>
    simp only [World.step] at hs
    split at hs
    · rename_i c nr a f x hpc
      have hx := hsafe.cursor t x (by simp [hpc, Pc.cursor])
      have hmv : ({ s with list := listMoveTail s.list x } : World).Calls :=
        ⟨h.lt, h.active, h.distinct, h.quiet, h.held, h.revisit⟩
      have hrel := hmv.release (t := t) x
      split at hs
      · cases hs; exact hrel
      · rw [hs' hs]
        rcases World.scanWalk_eq (s := ({ s with list := listMoveTail s.list x } : World).release t x)
          (listMoveTail_nodup hsafe.nodup hx)
          (fun y hy => by simpa [World.release, hx] using nextOf_mem hsafe.nodup hx hy) t c nr a f
          with he | ⟨y, hy, he⟩ <;> rw [he]
        · exact hrel.quit (t := t) rfl rfl le_rfl (fun u hu => by simp [Function.update_noteq hu])
            (by simp [Pc.scanCall])
        · exact h.next (t := t) rfl rfl le_rfl
            (fun u hu => by simp [World.release, Function.update_noteq hu])
            (Function.update_same _ _ _) (by simp [hpc, Pc.scanCall]) hy
    · cases hs
  | count =>
    simp only [World.step] at hs
    split at hs
    · rw [hs' hs]; exact h.countWalk _
    · cases hs
  | countRelock =>
    simp only [World.step] at hs
    split at hs <;> cases hs
    exact (h.release _).countWalk _
  | join sbi =>
    simp only [World.step] at hs
    split at hs
    · rename_i hj
      cases hs
      exact h.quit (t := t) rfl rfl le_rfl (fun _ _ => rfl) (by simp [hj.1, Pc.scanCall])
    · cases hs
  | umountLock sbi =>
    simp only [World.step] at hs
    split at hs
    · cases hs
      exact h.quit (t := t) rfl rfl le_rfl (fun u hu => by simp [Function.update_noteq hu])
        (by simp [Pc.scanCall])
    · cases hs
  | leave =>
    simp only [World.step] at hs
    split at hs <;> cases hs
    rename_i sbi hpc
    exact h.quit (t := t) rfl rfl le_rfl (fun _ _ => rfl) (by simp [hpc, Pc.scanCall])
  | umountUnlock =>
    simp only [World.step] at hs
    split at hs <;> cases hs
    exact h.release _

end

theorem World.Reach.calls {w : Nat} {s : World} (hs : World.Reach w s) : s.Calls := by
  induction hs with
  | init => exact World.init_calls
  | step t m hr hstep ih => exact ih.step hr.safe hstep

/-- **A second processing needs another scan in between.**  In every interleaving, when a scan
call processes (stamps and shrinks) a record it has processed before, another scan call
processed that record between the two. -/
theorem shrinkScan_revisit (w : Nat) (s : World) (hs : World.Reach w s) :
    ∀ i j c x : Nat, i < j → s.hist[i]? = some (c, x) → s.hist[j]? = some (c, x) →
      ∃ k c' : Nat, i < k ∧ k < j ∧ c' ≠ c ∧ s.hist[k]? = some (c', x) :=
  hs.calls.revisit

/-- Every shrink call frees nothing. -/
def dryEnv : ShrinkEnv := ⟨fun _ => true, fun _ _ _ => 0⟩

theorem serve_dryEnv_freed (w nr a x : Nat) (v : Walk) (h : v.freed = 0) :
    (serve w dryEnv nr a x v).freed = 0 := by
  have hcall : ∀ (t : Tier) (sbi : Nat) (u : Walk), u.freed = 0 →
      (u.callIfShort w dryEnv t nr sbi).freed = 0 := by
    intro t sbi u hu
    unfold Walk.callIfShort; split <;> simp [Walk.call, dryEnv, hu]
  exact hcall _ _ _ (hcall _ _ _ (by simp [Walk.call, dryEnv, h]))

/-- Two records join.  Scan A (thread 0, nothing freed) processes record 0 and takes record 1;
scan B (thread 1) steps past record 1, which A holds, processes record 0 with its own run id and
moves it behind A's cursor; A then meets record 0 again and processes it a second time. -/
def twiceMoves : List (Nat × Move) :=
  [(2, .join 0), (2, .join 1), (0, .scan 1), (0, .serve dryEnv), (0, .scanRelock),
    (1, .scan 1), (1, .serve freeEnv), (1, .scanRelock), (0, .serve dryEnv), (0, .scanRelock),
    (0, .serve dryEnv)]

theorem twiceMoves_hist :
    (World.init.steps 64 twiceMoves).map World.hist = some [(0, 0), (1, 0), (0, 1), (0, 0)] :=
  rfl

/-- Scan call 0 processes record 0 twice. -/
theorem shrinkScan_twice :
    ∃ s, World.init.steps 64 twiceMoves = some s ∧ World.Reach 64 s ∧
      s.hist[0]? = some (0, 0) ∧ s.hist[3]? = some (0, 0) := by
  obtain ⟨s, hs⟩ : ∃ s, World.init.steps 64 twiceMoves = some s := ⟨_, rfl⟩
  have hh := twiceMoves_hist
  rw [hs, Option.map_some', Option.some.injEq] at hh
  exact ⟨s, hs, World.Reach.init.steps 64 twiceMoves hs, by rw [hh]; rfl, by rw [hh]; rfl⟩

theorem shrinkScan_revisit_twice :
    ∃ s, World.init.steps 64 twiceMoves = some s ∧
      ∀ i j c x : Nat, i < j → s.hist[i]? = some (c, x) → s.hist[j]? = some (c, x) →
        ∃ k c' : Nat, i < k ∧ k < j ∧ c' ≠ c ∧ s.hist[k]? = some (c', x) := by
  obtain ⟨s, hs⟩ : ∃ s, World.init.steps 64 twiceMoves = some s := ⟨_, rfl⟩
  exact ⟨s, hs, shrinkScan_revisit 64 s (World.Reach.init.steps 64 twiceMoves hs)⟩

end F3fs
