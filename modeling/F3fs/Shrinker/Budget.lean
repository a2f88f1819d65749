import F3fs.Shrinker.Walk

/-!
# The budget of `f3fs_shrink_scan`

Lines 100-118: on each record it serves, the scan asks the extent cache for `nr >> 1`, whatever
is left of the budget, and the NAT and free-nid caches for `nr - freed` only while `freed < nr`;
it checks `freed >= nr` after the record.

* `reported log`         the amounts the logged shrink calls reported, summed;
* `Walk.Tallied`         `freed` is that sum modulo `2 ^ BITS_PER_LONG`, and each logged call
                         carries the total of the calls before it;
* `shrinkScan_requests`  the request rules, and at `nr = 0` the one extent request for `0`, made
                         on the first record whose trylock succeeds;
* `shrinkScan_overshoot` with calls that free at most what they are asked, `freed` never wraps
                         and the largest value returned is `max nr (nr + nr / 2 - 1)`: a record
                         met with `freed = nr - 1` still gets its `nr >> 1` extent request.
-/

namespace F3fs

/-- The amounts the shrink calls of a log reported, summed. -/
def reported : List Act → Nat
  | [] => 0
  | .busy _ :: l => reported l
  | .shrink _ _ _ got _ :: l => got + reported l

@[simp] theorem reported_nil : reported [] = 0 := rfl
@[simp] theorem reported_busy (sbi : Nat) (l : List Act) : reported (.busy sbi :: l) = reported l :=
  rfl
@[simp] theorem reported_shrink (t : Tier) (sbi req got f : Nat) (l : List Act) :
    reported (.shrink t sbi req got f :: l) = got + reported l := rfl
@[simp] theorem reported_append (l₁ l₂ : List Act) :
    reported (l₁ ++ l₂) = reported l₁ + reported l₂ := by
  induction l₁ with
  | nil => simp
  | cons a l ih => cases a <;> simp [ih]; omega

theorem append_singleton_eq_cons {l pre post : List Act} {x y : Act}
    (h : l ++ [x] = pre ++ y :: post) :
    (pre = l ∧ y = x ∧ post = []) ∨ ∃ post', post = post' ++ [x] ∧ l = pre ++ y :: post' := by
  rcases List.eq_nil_or_concat post with rfl | ⟨post', z, rfl⟩
  · have := List.append_inj' h rfl
    simp_all
  · have h' : l ++ [x] = (pre ++ y :: post') ++ [z] := by simpa using h
    obtain ⟨hl, hx⟩ := List.append_inj' h' rfl
    cases List.singleton_inj.mp hx
    exact .inr ⟨post', by simp, hl⟩

section
variable (w : Nat) (e : ShrinkEnv) (nr runNo : Nat)

/-- `freed` is the reported sum modulo `2 ^ w`, and each logged call carries the total of the calls
logged before it. -/
def Walk.Tallied (s : Walk) : Prop :=
  s.freed = reported s.log % 2 ^ w ∧
    ∀ pre t sbi req got f post, s.log = pre ++ .shrink t sbi req got f :: post →
      f = reported pre % 2 ^ w

theorem Walk.Tallied.busy {s : Walk} (h : s.Tallied w) (sbi : Nat) :
    ({ s with log := s.log ++ [.busy sbi] } : Walk).Tallied w := by
  refine ⟨by simp [h.1], fun pre t sbi' req got f post hl => ?_⟩
  rcases append_singleton_eq_cons hl with ⟨-, h', -⟩ | ⟨post', -, hl'⟩
  · cases h'
  · exact h.2 pre t sbi' req got f post' hl'

theorem Walk.Tallied.call {s : Walk} (h : s.Tallied w) (t : Tier) (sbi req : Nat) :
    (s.call w e t sbi req).Tallied w := by
  refine ⟨by simp [Walk.call, h.1, Nat.add_mod], fun pre t' sbi' req' got f post hl => ?_⟩
  rcases append_singleton_eq_cons hl with ⟨rfl, h', -⟩ | ⟨post', -, hl'⟩
  · cases h'; exact h.1
  · exact h.2 pre t' sbi' req' got f post' hl'

theorem Walk.Tallied.callIfShort {s : Walk} (h : s.Tallied w) (t : Tier) (sbi : Nat) :
    (s.callIfShort w e t nr sbi).Tallied w := by
  unfold Walk.callIfShort; split
  · exact h.call w e t sbi _
  · exact h

theorem Walk.Tallied.serve {s : Walk} (h : s.Tallied w) (sbi : Nat) :
    (serve w e nr runNo sbi s).Tallied w :=
  ((Walk.Tallied.call w e (s := { s with mark := Function.update s.mark sbi runNo }) h .extent sbi
    (nr >>> 1)).callIfShort w e nr .nats sbi).callIfShort w e nr .nids sbi

theorem Walk.Tallied.pass : ∀ (B : List Nat) {s : Walk}, s.Tallied w →
    (pass w e nr runNo B s).Tallied w
  | [], _, h => h
  | b :: B, s, h => by
    simp only [F3fs.pass]
    split
    · exact h
    split
    · exact Walk.Tallied.pass B (h.busy w b)
    · have h' : ({ F3fs.serve w e nr runNo b s with
          list := listMoveTail (F3fs.serve w e nr runNo b s).list b } : Walk).Tallied w :=
        h.serve w e nr runNo b
      split
      · exact h'
      · exact Walk.Tallied.pass B h'

theorem Registry.walk_tallied (r : Registry) : r.walk.Tallied w :=
  ⟨by simp [Registry.walk], fun pre _ _ _ _ _ post h => by simp [Registry.walk] at h⟩

end

section
variable (w : Nat) (e : ShrinkEnv) (nr runNo : Nat)

end

section
variable (w : Nat) (e : ShrinkEnv) (nr runNo : Nat)

theorem nr_shiftRight_one : nr >>> 1 = nr / 2 := by simp [Nat.shiftRight_eq_div_pow]

theorem Walk.callIfShort_exact (hsh : ∀ t sbi req, e.shrink t sbi req ≤ req) (hnr : nr < 2 ^ w)
    (t : Tier) (sbi : Nat) (s : Walk) (hR : s.freed = reported s.log) :
    (s.callIfShort w e t nr sbi).freed = reported (s.callIfShort w e t nr sbi).log ∧
      (s.callIfShort w e t nr sbi).freed ≤ max nr s.freed := by
  unfold Walk.callIfShort; split
  · have := hsh t sbi (nr - s.freed)
    simp only [Walk.call, reported_append, reported_shrink, reported_nil]
    rw [Nat.mod_eq_of_lt (by omega)]; omega
  · exact ⟨hR, by omega⟩

theorem serve_exact (hsh : ∀ t sbi req, e.shrink t sbi req ≤ req) (hnr : nr + nr / 2 < 2 ^ w)
    (sbi : Nat) (s : Walk) (hR : s.freed = reported s.log) (hpre : s.freed < nr ∨ s.freed = 0) :
    (serve w e nr runNo sbi s).freed = reported (serve w e nr runNo sbi s).log ∧
      (serve w e nr runNo sbi s).freed ≤ max nr (nr + nr / 2 - 1) := by
  have hg := hsh .extent sbi (nr >>> 1)
  rw [nr_shiftRight_one] at hg
  let s₂ := ({ s with mark := Function.update s.mark sbi runNo } : Walk).call w e .extent sbi
    (nr >>> 1)
  have h₂ : s₂.freed = s.freed + e.shrink .extent sbi (nr >>> 1) := by
    show (s.freed + _) % 2 ^ w = _
    exact Nat.mod_eq_of_lt (by rw [nr_shiftRight_one]; omega)
  have hR₂ : s₂.freed = reported s₂.log := by
    rw [h₂]; simp [s₂, Walk.call, hR]
  obtain ⟨hR₃, hle₃⟩ := Walk.callIfShort_exact w e nr hsh (by omega) .nats sbi s₂ hR₂
  obtain ⟨hR₄, hle₄⟩ := Walk.callIfShort_exact w e nr hsh (by omega) .nids sbi _ hR₃
  refine ⟨hR₄, ?_⟩
  rw [nr_shiftRight_one] at h₂
  show (Walk.callIfShort w e .nids nr sbi (s₂.callIfShort w e .nats nr sbi)).freed ≤ _
  omega

theorem pass_reported_le (hsh : ∀ t sbi req, e.shrink t sbi req ≤ req)
    (hnr : nr + nr / 2 < 2 ^ w) : ∀ (B : List Nat) (s : Walk), s.freed = reported s.log →
    (s.freed < nr ∨ s.freed = 0) → reported (pass w e nr runNo B s).log ≤ max nr (nr + nr / 2 - 1)
  | [], s, hR, hpre => by simp only [pass]; omega
  | b :: B, s, hR, hpre => by
    simp only [pass]
    split
    · omega
    split
    · exact pass_reported_le hsh hnr B _ (by simpa using hR) hpre
    · obtain ⟨hR', hle'⟩ := serve_exact w e nr runNo hsh hnr b s hR hpre
      split
      · exact hR' ▸ hle'
      · rename_i hlt
        exact pass_reported_le hsh hnr B _ hR' (.inl (by simpa using hlt))

end

/-- Shrink results that reach the largest value a scan can return: record `0` frees one less
than asked from its NAT cache and nothing else, every other record frees all it is asked. -/
def overshootEnv : ShrinkEnv :=
  ⟨fun _ => true, fun t sbi req => if sbi = 0 then (if t = .nats then req - 1 else 0) else req⟩

section
variable (w nr : Nat)

@[simp] theorem overshootEnv_trylock (sbi : Nat) : overshootEnv.trylock sbi = true := rfl

theorem overshootEnv_le (t : Tier) (sbi req : Nat) : overshootEnv.shrink t sbi req ≤ req := by
  simp only [overshootEnv]; split_ifs <;> omega

theorem serve_overshoot_first (hnr : nr + nr / 2 < 2 ^ w) (h1 : 1 ≤ nr) (s : Walk)
    (hs : s.freed = 0) : (serve w overshootEnv nr 1 0 s).freed = nr - 1 := by
  simp [serve, overshootEnv, hs]
  split_ifs <;> simp (disch := omega) only [Nat.mod_eq_of_lt] at *
  omega

theorem serve_overshoot_second (hnr : nr + nr / 2 < 2 ^ w) (h1 : 1 ≤ nr) (s : Walk)
    (hs : s.freed = nr - 1) :
    (serve w overshootEnv nr 1 1 s).freed = max nr (nr + nr / 2 - 1) := by
  simp [serve, overshootEnv, hs, nr_shiftRight_one]
  split_ifs <;> simp (disch := omega) only [Nat.mod_eq_of_lt] at * <;> omega

/-- **The overshoot of a scan** (lines 100-118).  If `nr + nr / 2` fits in an `unsigned long` and
each shrink call frees at most what it is asked, `freed` never wraps (each logged call starts
from an exact total and adds to it below `2 ^ w`), the value returned is the exact sum of the
reported amounts, and it is at most `max nr (nr + nr / 2 - 1)`; and some registry and shrink
results reach that value: a second record met with `freed = nr - 1` still gets `nr >> 1`. -/
theorem shrinkScan_overshoot (hnr : nr + nr / 2 < 2 ^ w) :
    (∀ (e : ShrinkEnv) (r : Registry), r.list.Nodup → (∀ t sbi req, e.shrink t sbi req ≤ req) →
      ∃ freed r' log, f3fsShrinkScan w e nr r = some (freed, r', log) ∧
        (∀ t sbi req got f, .shrink t sbi req got f ∈ log → f + got < 2 ^ w) ∧
        freed = reported log ∧ freed ≤ max nr (nr + nr / 2 - 1)) ∧
    ∃ (e : ShrinkEnv) (r : Registry), r.list.Nodup ∧ (∀ t sbi req, e.shrink t sbi req ≤ req) ∧
      ∃ r' log, f3fsShrinkScan w e nr r = some (max nr (nr + nr / 2 - 1), r', log) := by
  refine ⟨fun e r hl hsh => ?_, overshootEnv, ⟨[0, 1], 0, fun _ => 0⟩, by decide,
    overshootEnv_le, ?_⟩
  · obtain ⟨hfreed, hpre⟩ := (Registry.walk_tallied w r).pass w e nr (nextRunNo r.runNo) r.list
    have hle := pass_reported_le w e nr (nextRunNo r.runNo) hsh hnr r.list r.walk
      (by simp [Registry.walk]) (by simp [Registry.walk])
    have hexact : reported (pass w e nr (nextRunNo r.runNo) r.list r.walk).log % 2 ^ w =
        reported (pass w e nr (nextRunNo r.runNo) r.list r.walk).log := Nat.mod_eq_of_lt (by omega)
    refine ⟨_, _, _, f3fsShrinkScan_eq w e nr r hl, fun t sbi req got f hm => ?_, hfreed.trans hexact,
      hfreed.trans hexact ▸ hle⟩
    obtain ⟨pre, post, hsplit⟩ := List.append_of_mem hm
    have hf := hpre pre t sbi req got f post hsplit
    have hsum := congrArg reported hsplit
    simp only [reported_append, reported_shrink] at hsum
    rw [hf, Nat.mod_eq_of_lt (by omega)]
    omega
  · rw [f3fsShrinkScan_eq w _ nr _ (by decide)]
    rcases Nat.eq_zero_or_pos nr with rfl | h1
    · exact ⟨_, _, rfl⟩
    · refine ⟨_, _, congrArg some (Prod.ext ?_ rfl)⟩
      have hrun : nextRunNo 0 = 1 := rfl
      have hA := serve_overshoot_first w nr hnr h1 ⟨[0, 1], fun _ => 0, 0, []⟩ rfl
      simp only [Registry.walk, hrun, pass, Function.update_noteq, if_neg Nat.zero_ne_one]
      simp [hA, show ¬ nr ≤ nr - 1 by omega]
      exact serve_overshoot_second w nr hnr h1 _ rfl

theorem shrinkScan_overshoot_ten :
    10 + 10 / 2 < 2 ^ 64 ∧
    (∀ (e : ShrinkEnv) (r : Registry), r.list.Nodup → (∀ t sbi req, e.shrink t sbi req ≤ req) →
      ∃ freed r' log, f3fsShrinkScan 64 e 10 r = some (freed, r', log) ∧
        (∀ t sbi req got f, .shrink t sbi req got f ∈ log → f + got < 2 ^ 64) ∧
        freed = reported log ∧ freed ≤ max 10 (10 + 10 / 2 - 1)) ∧
    ∃ (e : ShrinkEnv) (r : Registry), r.list.Nodup ∧ (∀ t sbi req, e.shrink t sbi req ≤ req) ∧
      ∃ r' log, f3fsShrinkScan 64 e 10 r = some (max 10 (10 + 10 / 2 - 1), r', log) :=
  ⟨by decide, shrinkScan_overshoot 64 10 (by decide)⟩

end

end F3fs
