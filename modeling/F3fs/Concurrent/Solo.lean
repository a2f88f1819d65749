import F3fs.Concurrent.Safety
import F3fs.Shrinker.Walk

/-!
# A scan that runs alone is `f3fs_shrink_scan`

The concurrent model cuts a scan into its critical sections (`World.step`); the sequential model
runs the whole call at once (`f3fsShrinkScan`).  When no other thread moves while thread `t`
scans, the two agree.  A `umount_mutex` another thread holds is a failed trylock
(`World.trylockEnv`), and the scan's start, then a serve and a relock for each record it takes,
leave the list, the run ids and the marks that the sequential call computes, with `t` idle again,
every mutex as before, and one processing logged for each record the sequential call serves.

* `walkLocked_fuel`       under the list lock, a walk from a cursor in `B ++ P` (the records of
                          `P` carrying the run id) reads at most `|B| + 1` records: any fuel above
                          `|B|` gives the same record;
* `World.steps_serveRelock`   one pass of the loop in the concurrent model: a serve and a relock;
* `World.scanWalk_pass`   from each walk on, the rest of a solo scan is `pass`;
* `World.scan_solo`       the whole call, from every reachable state.
-/

namespace F3fs

/-- The sequential call's view of the world: the trylock on a record fails exactly when a thread
holds its `umount_mutex`. -/
def World.trylockEnv (s : World) (sh : Tier → Nat → Nat → Nat) : ShrinkEnv :=
  ⟨fun x => (s.owner x).isNone, sh⟩

/-- The world whose list and marks are those of the walk `v`, and whose log is `H` followed by
the walk's processings as call `c`. -/
def World.afterScan (s : World) (c : Nat) (H : List (Nat × Nat)) (v : Walk) : World :=
  { s with list := v.list, mark := v.mark, hist := H ++ (served v.log).map (c, ·) }

/-- A walk from a cursor in `B ++ P`, where every record of `P` stops it, takes the same record
for every fuel above `|B|`. -/
theorem walkLocked_fuel {l : List Nat} (hl : l.Nodup) (busy stop : Nat → Bool) :
    ∀ (B A P : List Nat) (fuel fuel' : Nat) (p : Option Nat), l = A ++ B ++ P →
      (∀ x ∈ P, stop x = true) → B.length < fuel → B.length < fuel' →
      (p = (B ++ P).head? ∨ (B = [] ∧ p = none)) →
      (walkLocked l busy stop fuel p).1 = (walkLocked l busy stop fuel' p).1
  | _, _, _, 0, _, _, _, _, h, _, _ => absurd h (Nat.not_lt_zero _)
  | _, _, _, _, 0, _, _, _, _, h, _ => absurd h (Nat.not_lt_zero _)
  | [], A, P, f + 1, f' + 1, p, _, hP, _, _, hp => by
    rcases hp with rfl | ⟨-, rfl⟩
    · cases P with
      | nil => rfl
      | cons x P => simp [walkLocked, hP x (List.mem_cons_self x P)]
    · rfl
  | b :: B, A, P, f + 1, f' + 1, p, hs, hP, hf, hf', hp => by
    obtain rfl : p = some b := by simpa using hp
    have hnext : nextOf l b = (B ++ P).head? := by
      subst hs; simpa using nextOf_of_nodup (A := A) (B := B ++ P) (by simpa using hl)
    by_cases hstop : stop b = true
    · simp [walkLocked, hstop]
    by_cases hbusy : busy b = true
    · simp only [walkLocked, hstop, hbusy, if_true, if_false, Bool.false_eq_true, hnext]
      exact walkLocked_fuel hl busy stop B (A ++ [b]) P f f' _ (by simp [hs]) hP
        (by simpa using hf) (by simpa using hf') (.inl rfl)
    · simp [walkLocked, hstop, hbusy]

section
variable {w : Nat} {s : World} {t c nr a f b : Nat}

theorem World.scanWalk_none {p : Option Nat} (hidle : s.pc t = .idle)
    (h : (walkLocked s.list (fun x => (s.owner x).isSome) (fun x => s.mark x = a)
      (s.list.length + 1) p).1 = none) :
    (s.scanWalk t c nr a f p).1 = s := by
  simp [World.scanWalk, h, ← hidle]

theorem World.afterScan_self {v : Walk} {H : List (Nat × Nat)} (hvl : v.list = s.list)
    (hvm : v.mark = s.mark) (hh : s.hist = H ++ (served v.log).map (c, ·)) :
    s.afterScan c H v = s := by
  simp [World.afterScan, hvl, hvm, ← hh]

/-- One pass of the scan loop on a free record `b` that thread `t` has taken: the serve and the
relock give back its `umount_mutex` and leave `b` stamped, at the tail and logged; the scan ends,
or walks on from the record after `b`. -/
theorem World.steps_serveRelock (e : ShrinkEnv) {f' : Nat}
    (hf : (serve w e nr a b ⟨s.list, s.mark, f, []⟩).freed = f') (hidle : s.pc t = .idle)
    (hfree : s.owner b = none) (ms : List (Nat × Move)) :
    World.steps w { s with owner := Function.update s.owner b (some t),
                           pc := Function.update s.pc t (.scanHeld c nr a f b) }
        ((t, .serve e) :: (t, .scanRelock) :: ms) =
      World.steps w (if nr ≤ f' then
          ({ s with list := listMoveTail s.list b, mark := Function.update s.mark b a,
                    hist := s.hist ++ [(c, b)] } : World)
        else (({ s with list := listMoveTail s.list b, mark := Function.update s.mark b a,
                        hist := s.hist ++ [(c, b)] } : World).scanWalk t c nr a f'
          (nextOf s.list b)).1) ms := by
  have hrel : ∀ l : List Nat, ({ s with
      list := l
      mark := Function.update s.mark b a
      owner := Function.update (Function.update s.owner b (some t)) b none
      pc := Function.update (Function.update (Function.update s.pc t (.scanHeld c nr a f b)) t
        (.scanServed c nr a f' b)) t .idle
      hist := s.hist ++ [(c, b)] } : World) =
      { s with list := l, mark := Function.update s.mark b a, hist := s.hist ++ [(c, b)] } := by
    intro l; simp [hfree, ← hidle]
  simp only [World.steps, World.step, Function.update_same, hf, World.release, Option.some_bind,
    serve_mark]
  split <;> simp only [Option.some_bind] <;> rw [hrel]

/-- **From each walk on, a solo scan is a pass.**  Thread `t`, idle, walks from a cursor in
`B ++ P` (the list being `A ++ B ++ P`, the records of `P` carrying the run id `a`) with the
sequential walk `v` on the same list and marks.  With no other thread moving, its serves and
relocks end in the world of `pass` over `B`: the same list and marks, each mutex and thread as
before, and the log extended by the records `pass` serves. -/
theorem World.scanWalk_pass (sh : Tier → Nat → Nat → Nat) :
    ∀ (B A P : List Nat) (s : World) (v : Walk) (p : Option Nat) (H : List (Nat × Nat)),
      s.pc t = .idle → s.list = A ++ B ++ P → s.list.Nodup → (∀ x ∈ P, s.mark x = a) →
      (p = (B ++ P).head? ∨ (B = [] ∧ p = none)) → v.list = s.list → v.mark = s.mark →
      s.hist = H ++ (served v.log).map (c, ·) →
      ∃ ms : List (Nat × Move), (∀ m ∈ ms, m.1 = t) ∧
        (s.scanWalk t c nr a v.freed p).1.steps w ms =
          some (s.afterScan c H (pass w (s.trylockEnv sh) nr a B v))
  | [], A, P, s, v, p, H, hidle, hs, hnd, hP, hp, hvl, hvm, hh => by
    refine ⟨[], by simp, ?_⟩
    have hw : (walkLocked s.list (fun x => (s.owner x).isSome) (fun x => s.mark x = a)
        (s.list.length + 1) p).1 = none := by
      rcases hp with rfl | ⟨-, rfl⟩
      · cases P with
        | nil => rfl
        | cons x P => simp [walkLocked, hP x (List.mem_cons_self x P)]
      · rfl
    rw [World.scanWalk_none hidle hw, pass, World.afterScan_self hvl hvm hh]
    rfl
  | b :: B, A, P, s, v, p, H, hidle, hs, hnd, hP, hp, hvl, hvm, hh => by
    obtain rfl : p = some b := by simpa using hp
    have hb : b ∉ A := fun h => (List.nodup_append.1 (by simpa [hs] using hnd)).2.2 h
      (List.mem_cons_self b _)
    have hnext : nextOf s.list b = (B ++ P).head? := by
      rw [hs]; simpa using nextOf_of_nodup (A := A) (B := B ++ P) (by simpa [hs] using hnd)
    by_cases hstop : s.mark b = a
    · refine ⟨[], by simp, ?_⟩
      rw [World.scanWalk_none hidle (by simp [walkLocked, hstop]), pass, if_pos (hvm ▸ hstop),
        World.afterScan_self hvl hvm hh]
      rfl
    by_cases hbusy : (s.owner b).isSome
    · -- a busy record: the walk steps past it under the lock
      have hw : (walkLocked s.list (fun x => (s.owner x).isSome) (fun x => s.mark x = a)
          (s.list.length + 1) (some b)).1 = (walkLocked s.list (fun x => (s.owner x).isSome)
          (fun x => s.mark x = a) (s.list.length + 1) (nextOf s.list b)).1 := by
        simp only [walkLocked, hstop, hbusy, decide_False, if_true, if_false, Bool.false_eq_true,
          hnext]
        exact walkLocked_fuel hnd _ _ B (A ++ [b]) P _ _ _ (by simp [hs]) (by simpa using hP)
          (by simp [hs]; omega) (by simp [hs]; omega) (.inl rfl)
      have hpass : pass w (s.trylockEnv sh) nr a (b :: B) v =
          pass w (s.trylockEnv sh) nr a B { v with log := v.log ++ [.busy b] } := by
        simp [pass, hvm, hstop, World.trylockEnv, hbusy]
      have hwalk : (s.scanWalk t c nr a v.freed (some b)).1 =
          (s.scanWalk t c nr a v.freed (B ++ P).head?).1 := by
        simp only [World.scanWalk, hw, hnext]
        split <;> rfl
      rw [hwalk, hpass]
      exact World.scanWalk_pass sh B (A ++ [b]) P s { v with log := v.log ++ [.busy b] } _ H hidle
        (by simp [hs]) hnd hP (.inl rfl) hvl hvm (by simpa using hh)
    · -- a free record: the walk takes it, then a serve and a relock
      have hfree : s.owner b = none := by simpa using hbusy
      let e := s.trylockEnv sh
      let v₂ : Walk := { serve w e nr a b v with list := listMoveTail v.list b }
      let s₃ : World := { s with list := listMoveTail s.list b, mark := Function.update s.mark b a,
                                 hist := s.hist ++ [(c, b)] }
      have hwalk : (s.scanWalk t c nr a v.freed (some b)).1 =
          { s with owner := Function.update s.owner b (some t),
                   pc := Function.update s.pc t (.scanHeld c nr a v.freed b) } := by
        simp [World.scanWalk, walkLocked, hstop, hbusy]
      have hfreed : (serve w e nr a b ⟨s.list, s.mark, v.freed, []⟩).freed = v₂.freed :=
        serve_freed_congr w e nr a b rfl
      obtain ⟨δ, hδ, hsδ⟩ := serve_log w e nr a b v
      have hafter : s.afterScan c H v₂ = s₃ := by
        simp [World.afterScan, s₃, v₂, hh, hδ, hsδ, hvl, hvm]
      have hpass : pass w e nr a (b :: B) v =
          if nr ≤ v₂.freed then v₂ else pass w e nr a B v₂ := by
        simp [pass, hvm, hstop, e, World.trylockEnv, hbusy, v₂]
      rw [hwalk, hpass]
      by_cases hfin : nr ≤ v₂.freed
      · refine ⟨[(t, .serve e), (t, .scanRelock)], by simp, ?_⟩
        rw [World.steps_serveRelock e hfreed hidle hfree, if_pos hfin, if_pos hfin, hafter]
        rfl
      · obtain ⟨ms, hms, hsteps⟩ := World.scanWalk_pass sh B A (P ++ [b]) s₃ v₂ _ H hidle
          (by simp [s₃, hs, listMoveTail_mid A _ hb])
          (listMoveTail_nodup hnd (by simp [hs]))
          (fun x hx => by
            by_cases hxb : x = b
            · subst hxb; simp [s₃]
            · simpa [s₃, hxb] using hP x (by simpa [hxb] using hx))
          (head?_cursor B P b) (by simp [v₂, s₃, hvl]) (by simp [v₂, s₃, hvm])
          (by rw [← hafter]; rfl)
        refine ⟨(t, .serve e) :: (t, .scanRelock) :: ms, by simpa using hms, ?_⟩
        rw [World.steps_serveRelock e hfreed hidle hfree, if_neg hfin, if_neg hfin]
        exact hnext ▸ hsteps

end

/-- **A scan that runs alone is `f3fs_shrink_scan`.**  From every reachable state in which thread
`t` is idle, whatever the shrink calls report: the sequential call on the same list, run ids and
marks, with a trylock failing exactly on the records whose `umount_mutex` a thread holds, returns;
and thread `t` alone, starting a scan and then serving and relocking, reaches the state with that
call's list, run id and marks, the scan counted, the log extended by the records the call served,
and every mutex and thread as before. -/
theorem World.scan_solo (w : Nat) (s : World) (hs : World.Reach w s) (t nr : Nat)
    (sh : Tier → Nat → Nat → Nat) (hidle : s.pc t = .idle) :
    ∃ freed r log, f3fsShrinkScan w (s.trylockEnv sh) nr ⟨s.list, s.runNo, s.mark⟩ =
        some (freed, r, log) ∧
      ∃ ms : List (Nat × Move), (∀ m ∈ ms, m.1 = t) ∧
        s.steps w ((t, .scan nr) :: ms) = some { s with
          list := r.list, runNo := r.runNo, mark := r.mark, calls := s.calls + 1,
          hist := s.hist ++ (served log).map (s.calls, ·) } := by
  have hnd := hs.safe.nodup
  refine ⟨_, _, _, f3fsShrinkScan_eq w _ nr ⟨s.list, s.runNo, s.mark⟩ hnd, ?_⟩
  obtain ⟨ms, hms, hsteps⟩ := World.scanWalk_pass sh s.list [] []
    { s with runNo := nextRunNo s.runNo, calls := s.calls + 1 } ⟨s.list, s.mark, 0, []⟩
    s.list.head? s.hist hidle (by simp) hnd (by simp) (by simp) rfl rfl (by simp)
  exact ⟨ms, hms, by simpa [World.steps, World.step, hidle] using hsteps⟩

theorem World.scan_solo_two :
    ∃ s, World.init.steps 64 [(1, .join 0), (1, .join 1)] = some s ∧ World.Reach 64 s ∧
      s.pc 0 = .idle ∧
      ∃ freed r log, f3fsShrinkScan 64 (s.trylockEnv fun _ _ req => req) 1
          ⟨s.list, s.runNo, s.mark⟩ = some (freed, r, log) ∧
        ∃ ms : List (Nat × Move), (∀ m ∈ ms, m.1 = 0) ∧
          s.steps 64 ((0, .scan 1) :: ms) = some { s with
            list := r.list, runNo := r.runNo, mark := r.mark, calls := s.calls + 1,
            hist := s.hist ++ (served log).map (s.calls, ·) } :=
  have hs := World.Reach.init.steps 64 [(1, .join 0), (1, .join 1)] rfl
  ⟨_, rfl, hs, rfl, World.scan_solo 64 _ hs 0 1 _ rfl⟩

end F3fs
