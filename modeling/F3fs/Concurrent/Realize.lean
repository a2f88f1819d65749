import F3fs.Concurrent.Solo
import F3fs.Shrinker.Registry

/-!
# Every sequential run is an interleaving

The sequential model (`Registry.run`) lets each `umount_mutex` trylock of a scan fail or succeed
at will.  The concurrent model realizes every such run: before a scan, the unmount path of one
helper thread per busy record takes that record's `umount_mutex`; thread 0 scans alone
(`World.scan_solo`); the helpers give their mutexes back.  A leave is the unmount path of
thread 0 (lock, leave, unlock); a count changes nothing.  So what the sequential runs do, an
interleaving of the concurrent model does too.

* `lockMoves`, `unlockMoves`        the helpers' moves, thread `x + 1` for record `x`;
* `pass_congr`, `f3fsShrinkScan_congr`   a scan reads the trylock on the records of the list
                                    only;
* `World.realize_call`              one sequential call from a world where every thread is idle;
* `Registry.run_realized`           every sequential run from boot.
-/

namespace F3fs

section
variable (w : Nat) (nr runNo : Nat)

/-- `pass` reads the trylock outcome of the records it visits only, and `serve` none at all. -/
theorem pass_congr (e e' : ShrinkEnv) (hsh : e.shrink = e'.shrink) :
    ∀ (B : List Nat) (s : Walk), (∀ x ∈ B, e.trylock x = e'.trylock x) →
      pass w e nr runNo B s = pass w e' nr runNo B s
  | [], _, _ => rfl
  | b :: B, s, h => by
    obtain ⟨tr, sh⟩ := e
    obtain ⟨tr', sh'⟩ := e'
    subst hsh
    have hrest := pass_congr ⟨tr, sh⟩ ⟨tr', sh⟩ rfl B
    have hserve : serve w ⟨tr, sh⟩ = serve w ⟨tr', sh⟩ := rfl
    have htr : tr b = tr' b := h b (List.mem_cons_self b B)
    simp only [pass, htr, hserve]
    split_ifs <;> first
      | rfl
      | exact hrest _ fun x hx => h x (List.mem_cons_of_mem b hx)

theorem f3fsShrinkScan_congr {e e' : ShrinkEnv} (hsh : e.shrink = e'.shrink) (r : Registry)
    (hl : r.list.Nodup) (h : ∀ x ∈ r.list, e.trylock x = e'.trylock x) :
    f3fsShrinkScan w e nr r = f3fsShrinkScan w e' nr r := by
  rw [f3fsShrinkScan_eq w e nr r hl, f3fsShrinkScan_eq w e' nr r hl,
    pass_congr w nr _ e e' hsh r.list r.walk h]

end

/-- The helpers take the `umount_mutex` of each record of `B`: thread `x + 1` that of `x`. -/
def lockMoves (B : List Nat) : List (Nat × Move) := B.map fun x => (x + 1, .umountLock x)

/-- The helpers give them back. -/
def unlockMoves (B : List Nat) : List (Nat × Move) := B.map fun x => (x + 1, .umountUnlock)

section
variable {w : Nat}

theorem World.Safe.owner_none {s : World} (h : s.Safe) (hidle : ∀ t, s.pc t = .idle) (x : Nat) :
    s.owner x = none := by
  cases hx : s.owner x with
  | none => rfl
  | some u => simpa [hidle u, Pc.held] using h.owner u x hx

theorem World.steps_lockMoves : ∀ (B : List Nat) (s : World), B.Nodup →
    (∀ x ∈ B, s.owner x = none) → (∀ x ∈ B, s.pc (x + 1) = .idle) →
    ∃ s', s.steps w (lockMoves B) = some s' ∧ s'.list = s.list ∧ s'.runNo = s.runNo ∧
      s'.mark = s.mark ∧ (∀ x, s'.owner x = if x ∈ B then some (x + 1) else s.owner x) ∧
      ∀ t, s'.pc t = if t ≠ 0 ∧ t - 1 ∈ B then .umountHeld (t - 1) else s.pc t
  | [], s, _, _, _ => ⟨s, rfl, rfl, rfl, rfl, by simp, by simp⟩
  | b :: B, s, hnd, hown, hidle => by
    obtain ⟨hb, hnd⟩ := List.nodup_cons.1 hnd
    let s₁ : World := { s with owner := Function.update s.owner b (some (b + 1)),
                               pc := Function.update s.pc (b + 1) (.umountHeld b) }
    have hs₁ : s.step w (b + 1) (.umountLock b) = some (s₁, []) := by
      simp [World.step, hidle b (List.mem_cons_self b B), hown b (List.mem_cons_self b B), s₁]
    have hne : ∀ x ∈ B, x ≠ b := fun x hx h => hb (h ▸ hx)
    obtain ⟨s', hst, hl, hr, hm, ho, hp⟩ := World.steps_lockMoves B s₁ hnd
      (fun x hx => by
        simpa [s₁, hne x hx] using hown x (List.mem_cons_of_mem b hx))
      (fun x hx => by
        simpa [s₁, hne x hx] using hidle x (List.mem_cons_of_mem b hx))
    refine ⟨s', by simp [lockMoves, World.steps, hs₁] at hst ⊢; exact hst, hl, hr, hm,
      fun x => ?_, fun t => ?_⟩
    · rw [ho x]
      by_cases hx : x = b
      · subst hx; simp [s₁, hb]
      · simp [s₁, hx]
    · rw [hp t]
      by_cases ht : t = b + 1
      · subst ht; simp [s₁, hb]
      · rcases (by omega : t - 1 ≠ b ∨ t = 0) with h | h <;> simp [s₁, ht, h]

theorem World.steps_unlockMoves : ∀ (B : List Nat) (s : World), B.Nodup →
    (∀ x ∈ B, s.pc (x + 1) = .umountHeld x) →
    ∃ s', s.steps w (unlockMoves B) = some s' ∧ s'.list = s.list ∧ s'.runNo = s.runNo ∧
      s'.mark = s.mark ∧ ∀ t, s'.pc t = if t ≠ 0 ∧ t - 1 ∈ B then .idle else s.pc t
  | [], s, _, _ => ⟨s, rfl, rfl, rfl, rfl, by simp⟩
  | b :: B, s, hnd, hheld => by
    obtain ⟨hb, hnd⟩ := List.nodup_cons.1 hnd
    have hs₁ : s.step w (b + 1) .umountUnlock = some (s.release (b + 1) b, []) := by
      simp [World.step, hheld b (List.mem_cons_self b B)]
    have hne : ∀ x ∈ B, x ≠ b := fun x hx h => hb (h ▸ hx)
    obtain ⟨s', hst, hl, hr, hm, hp⟩ := World.steps_unlockMoves B (s.release (b + 1) b) hnd
      (fun x hx => by
        simpa [World.release, hne x hx] using hheld x (List.mem_cons_of_mem b hx))
    refine ⟨s', by simp [unlockMoves, World.steps, hs₁] at hst ⊢; exact hst, hl, hr, hm,
      fun t => ?_⟩
    rw [hp t]
    by_cases ht : t = b + 1
    · subst ht; simp [World.release]
    · rcases (by omega : t - 1 ≠ b ∨ t = 0) with h | h <;> simp [World.release, ht, h]


/-- **One sequential call in the concurrent model.**  From a reachable world in which every
thread is idle, each call the sequential model makes on the world's list, run id and marks,
whatever its trylock outcomes, is realized by an interleaving that ends with every thread idle
and the registry the call leaves. -/
theorem World.realize_call {s : World} (hs : World.Reach w s) (hidle : ∀ t, s.pc t = .idle)
    {c : Call} {r' : Registry} {log : List Act}
    (hc : (⟨s.list, s.runNo, s.mark⟩ : Registry).call w c = some (r', log)) :
    ∃ ms s', s.steps w ms = some s' ∧ World.Reach w s' ∧ (∀ t, s'.pc t = .idle) ∧
      s'.list = r'.list ∧ s'.runNo = r'.runNo ∧ s'.mark = r'.mark := by
  have hsafe := hs.safe
  cases c with
  | join sbi =>
    simp only [Registry.call] at hc
    split_ifs at hc with hin
    obtain ⟨rfl, rfl⟩ := Prod.mk.inj (Option.some.inj hc)
    have hsteps : s.steps w [(0, .join sbi)] =
        some { s with list := listAddTail s.list sbi, live := Function.update s.live sbi true } := by
      simp [World.steps, World.step, hidle 0, hin]
    exact ⟨_, _, hsteps, hs.steps w _ hsteps, hidle, rfl, rfl, rfl⟩
  | leave sbi =>
    obtain ⟨rfl, rfl⟩ := Prod.mk.inj (Option.some.inj hc)
    have hsteps : s.steps w [(0, .umountLock sbi), (0, .leave), (0, .umountUnlock)] =
        some { s with list := listDelInit s.list sbi, live := Function.update s.live sbi false } := by
      simp [World.steps, World.step, World.release, hidle 0, hsafe.owner_none hidle sbi]
    exact ⟨_, _, hsteps, hs.steps w _ hsteps, hidle, rfl, rfl, rfl⟩
  | count =>
    obtain ⟨rfl, rfl⟩ := Prod.mk.inj (Option.some.inj hc)
    exact ⟨[], s, rfl, hs, hidle, rfl, rfl, rfl⟩
  | scan e nr =>
    -- the helpers hold the records whose trylock fails
    let B := s.list.filter fun x => e.trylock x = false
    have hB : B.Nodup := hsafe.nodup.filter _
    obtain ⟨s₁, h₁, hl₁, hr₁, hm₁, ho₁, hp₁⟩ := World.steps_lockMoves (w := w) B s hB
      (fun x _ => hsafe.owner_none hidle x) (fun x _ => hidle _)
    have hs₁ := hs.steps w _ h₁
    obtain ⟨freed, r₁, log₁, hscan, ms, -, h₂⟩ :=
      World.scan_solo w s₁ hs₁ 0 nr e.shrink (by simp [hp₁, hidle])
    obtain ⟨s₂, h₂, hp₂, hl₂, hr₂, hm₂⟩ : ∃ s₂, s₁.steps w ((0, .scan nr) :: ms) = some s₂ ∧
        s₂.pc = s₁.pc ∧ s₂.list = r₁.list ∧ s₂.runNo = r₁.runNo ∧ s₂.mark = r₁.mark :=
      ⟨_, h₂, rfl, rfl, rfl, rfl⟩
    -- the sequential call with these trylock outcomes is the solo scan's
    have htry : ∀ x ∈ s.list, e.trylock x = (s₁.trylockEnv e.shrink).trylock x := by
      intro x hx
      cases htx : e.trylock x <;> simp [World.trylockEnv, ho₁, B, hx, htx, hsafe.owner_none hidle]
    have hcongr : f3fsShrinkScan w e nr ⟨s.list, s.runNo, s.mark⟩ =
        f3fsShrinkScan w (s₁.trylockEnv e.shrink) nr ⟨s.list, s.runNo, s.mark⟩ :=
      f3fsShrinkScan_congr w nr (by rfl) _ hsafe.nodup htry
    rw [Registry.call, hcongr, ← hl₁, ← hr₁, ← hm₁, hscan, Option.map_some'] at hc
    obtain ⟨rfl, rfl⟩ := Prod.mk.inj (Option.some.inj hc)
    -- the helpers give their mutexes back
    obtain ⟨s₃, h₃, hl₃, hr₃, hm₃, hp₃⟩ := World.steps_unlockMoves (w := w) B s₂ hB
      (fun x hx => by simp [hp₂, hp₁, hx])
    have hsteps : s.steps w (lockMoves B ++ ((0, .scan nr) :: ms) ++ unlockMoves B) = some s₃ := by
      rw [World.steps_append, World.steps_append, h₁, Option.some_bind, h₂, Option.some_bind, h₃]
    refine ⟨_, s₃, hsteps, hs.steps w _ hsteps, fun t => ?_, hl₃.trans hl₂, hr₃.trans hr₂,
      hm₃.trans hm₂⟩
    rw [hp₃ t]
    split_ifs with hcond
    · rfl
    · rw [hp₂, hp₁, if_neg hcond, hidle]

end

/-- **Every sequential run is an interleaving.**  For every sequence of join, leave, count and
scan calls with any trylock outcomes and shrink results, the list, run id and marks the
sequential run leaves are those of a state of the concurrent model reached from boot, in which
every thread is idle. -/
theorem Registry.run_realized (w : Nat) (cs : List Call) (r : Registry)
    (hrun : Registry.init.run w cs = some r) :
    ∃ ms s, World.init.steps w ms = some s ∧ World.Reach w s ∧ (∀ t, s.pc t = .idle) ∧
      s.list = r.list ∧ s.runNo = r.runNo ∧ s.mark = r.mark := by
  suffices h : ∀ (cs : List Call) (s : World), World.Reach w s → (∀ t, s.pc t = .idle) →
      ∀ r, (⟨s.list, s.runNo, s.mark⟩ : Registry).run w cs = some r →
      ∃ ms s', s.steps w ms = some s' ∧ World.Reach w s' ∧ (∀ t, s'.pc t = .idle) ∧
        s'.list = r.list ∧ s'.runNo = r.runNo ∧ s'.mark = r.mark from
    h cs World.init .init (fun _ => rfl) r hrun
  intro cs
  induction cs with
  | nil =>
    intro s hs hidle r h
    cases h
    exact ⟨[], s, rfl, hs, hidle, rfl, rfl, rfl⟩
  | cons c cs ih =>
    intro s hs hidle r h
    simp only [Registry.run_cons, Option.bind_eq_some] at h
    obtain ⟨⟨r₁, log⟩, hc, hrest⟩ := h
    obtain ⟨ms₁, s₁, h₁, hs₁, hidle₁, hl, hr, hm⟩ := World.realize_call hs hidle hc
    obtain ⟨ms₂, s₂, h₂, hs₂, hidle₂, hl₂, hr₂, hm₂⟩ := ih s₁ hs₁ hidle₁ r (by
      rw [hl, hr, hm]; exact hrest)
    exact ⟨ms₁ ++ ms₂, s₂, by rw [World.steps_append, h₁, Option.some_bind, h₂], hs₂, hidle₂, hl₂,
      hr₂, hm₂⟩

theorem Registry.run_realized_busy :
    ∃ r, Registry.init.run 64
        [.join 0, .join 1, .scan ⟨fun x => x != 0, fun _ _ req => req⟩ 1] = some r ∧
      ∃ ms s, World.init.steps 64 ms = some s ∧ World.Reach 64 s ∧ (∀ t, s.pc t = .idle) ∧
        s.list = r.list ∧ s.runNo = r.runNo ∧ s.mark = r.mark :=
  by
  obtain ⟨r, hr⟩ : ∃ r, Registry.init.run 64
      [.join 0, .join 1, .scan ⟨fun x => x != 0, fun _ _ req => req⟩ 1] = some r := ⟨_, rfl⟩
  exact ⟨r, hr, Registry.run_realized 64 _ r hr⟩

end F3fs
