import F3fs.Shrinker.Scan

/-!
# The scan loop visits the list once, in order

The loop of `f3fs_shrink_scan` keeps a cursor: it takes `p = p->next` before
`list_move_tail` sends a served record to the tail, steps past busy records left in place, and
stops when it meets a record already stamped with its run id.  `scanLoop_pass` shows that on a
duplicate-free list this is a plain pass over the records in list order (`pass`): while the list
is `A ++ B ++ P`, with `A` the busy records stepped past, `B` those not yet visited and `P` those
served, the cursor is the first of `B ++ P`, and the records of `P` all carry the run id.

* `served log`        the records served, read off the log (one extent call each);
* `pass_spec`         what a pass does: the served records are a sublist of the visited ones, they
                      are stamped, and the list ends as the others followed by the served ones;
* `servedBy`          the served records when none carries the run id: in list order, those whose
                      trylock succeeds, up to the first after which `freed ≥ nr`;
* `shrinkScan_serves` the whole call.
-/

namespace F3fs

/-- The records served in a log, in order: each gets exactly one extent call. -/
def served (log : List Act) : List Nat :=
  log.filterMap fun
    | .shrink .extent sbi _ _ _ => some sbi
    | _ => none

@[simp] theorem served_nil : served [] = [] := rfl
@[simp] theorem served_append (l₁ l₂ : List Act) : served (l₁ ++ l₂) = served l₁ ++ served l₂ :=
  List.filterMap_append _ _ _
@[simp] theorem served_busy (sbi : Nat) (l : List Act) : served (.busy sbi :: l) = served l := rfl
@[simp] theorem served_shrink (t : Tier) (sbi req got f : Nat) (l : List Act) :
    served (.shrink t sbi req got f :: l) = if t = .extent then sbi :: served l else served l := by
  cases t <;> rfl

section
variable (w : Nat) (e : ShrinkEnv) (nr runNo : Nat)

@[simp] theorem Walk.call_freed (t : Tier) (sbi req : Nat) (s : Walk) :
    (s.call w e t sbi req).freed = (s.freed + e.shrink t sbi req) % 2 ^ w := rfl

@[simp] theorem Walk.callIfShort_freed (t : Tier) (sbi : Nat) (s : Walk) :
    (s.callIfShort w e t nr sbi).freed =
      if s.freed < nr then (s.freed + e.shrink t sbi (nr - s.freed)) % 2 ^ w else s.freed := by
  unfold Walk.callIfShort; split <;> rfl

theorem Walk.callIfShort_log (t : Tier) (sbi : Nat) (s : Walk) (ht : t ≠ .extent) :
    ∃ δ, (s.callIfShort w e t nr sbi).log = s.log ++ δ ∧ served δ = [] := by
  unfold Walk.callIfShort; split
  · exact ⟨_, rfl, by simp [ht]⟩
  · exact ⟨[], by simp⟩

theorem serve_log (sbi : Nat) (s : Walk) :
    ∃ δ, (serve w e nr runNo sbi s).log = s.log ++ δ ∧ served δ = [sbi] := by
  obtain ⟨δ₁, h₁, hs₁⟩ := Walk.callIfShort_log w e nr .nats sbi
    (({ s with mark := Function.update s.mark sbi runNo } : Walk).call w e .extent sbi (nr >>> 1))
    (by decide)
  obtain ⟨δ₂, h₂, hs₂⟩ := Walk.callIfShort_log w e nr .nids sbi _ (by decide)
  exact ⟨[.shrink .extent sbi (nr >>> 1) (e.shrink .extent sbi (nr >>> 1)) s.freed] ++ δ₁ ++ δ₂,
    by rw [serve, h₂, h₁]; simp [Walk.call], by simp [hs₁, hs₂]⟩

theorem serve_freed_congr (sbi : Nat) {s s' : Walk} (h : s.freed = s'.freed) :
    (serve w e nr runNo sbi s).freed = (serve w e nr runNo sbi s').freed := by
  simp only [serve, Walk.callIfShort_freed, Walk.call_freed, h]

/-- The walk over the records of `B` with the cursor taken out: stop at a record that carries
the run id, step past a busy one, serve the others, each moved to the tail, until `freed ≥ nr`. -/
def pass : List Nat → Walk → Walk
  | [], s => s
  | sbi :: B, s =>
    if s.mark sbi = runNo then s
    else if e.trylock sbi = false then pass B { s with log := s.log ++ [.busy sbi] }
    else
      let s := serve w e nr runNo sbi s
      let s := { s with list := listMoveTail s.list sbi }
      if nr ≤ s.freed then s else pass B s

theorem head?_cursor (B P : List Nat) (b : Nat) :
    (B ++ P).head? = (B ++ (P ++ [b])).head? ∨ (B = [] ∧ (B ++ P).head? = none) := by
  cases h : B ++ P with
  | nil => simp_all
  | cons y l => left; simp [← List.append_assoc, h]

/-- **The cursor walk is a pass.**  With the list `A ++ B ++ P` (no duplicates), the records of
`P` stamped with the run id and the cursor at the first of `B ++ P` (or at the head once `B` is
empty), the loop ends within `|B| + 1` passes, as `pass B` does. -/
theorem scanLoop_pass : ∀ (B A P : List Nat) (s : Walk) (fuel : Nat) (p : Option Nat),
    s.list = A ++ B ++ P → s.list.Nodup → (∀ x ∈ P, s.mark x = runNo) → B.length < fuel →
    (p = (B ++ P).head? ∨ (B = [] ∧ p = none)) →
    scanLoop w e nr runNo fuel p s = some (pass w e nr runNo B s)
  | [], A, P, s, fuel + 1, p, _, _, hP, _, hp => by
    rcases hp with hp | ⟨-, rfl⟩
    · cases P with
      | nil => simp_all [scanLoop, pass]
      | cons x P => simp_all [scanLoop, pass]
    · rfl
  | b :: B, A, P, s, fuel + 1, p, hs, hnd, hP, hlen, hp => by
    have hp : p = some b := by simpa using hp
    subst hp
    have hb : b ∉ A ∧ b ∉ B ∧ b ∉ P := by
      have := (List.nodup_middle.mp (by simpa [hs] using hnd) |> List.nodup_cons.mp).1
      simp_all
    have hmem : b ∈ s.list := by simp [hs]
    have hnext : nextOf s.list b = (B ++ P).head? := by
      rw [hs, List.append_assoc, List.cons_append, nextOf_mid A (B ++ P) hb.1]
    have hlen' : B.length < fuel := by simpa using hlen
    simp only [scanLoop, pass]
    split
    · rfl
    split
    · rw [hnext]
      exact scanLoop_pass B (A ++ [b]) P _ fuel _ (by simp [hs]) hnd hP hlen' (.inl rfl)
    · simp only [serve_list, hnext]
      split
      · rfl
      have hmove : listMoveTail s.list b = A ++ B ++ (P ++ [b]) := by
        rw [hs, List.append_assoc, List.cons_append, listMoveTail_mid A _ hb.1]; simp
      refine scanLoop_pass B A (P ++ [b])
        { serve w e nr runNo b s with list := listMoveTail s.list b } fuel _ hmove
        (listMoveTail_nodup hnd hmem) ?_ hlen' ?_
      · intro x hx
        rcases List.mem_append.mp hx with hx | hx
        · have : x ≠ b := fun h => hb.2.2 (h ▸ hx)
          simp [Function.update_noteq this, hP x hx]
        · simp at hx; subst hx; simp
      · exact head?_cursor B P b

theorem listMoveTail_eq_filter {l : List Nat} (hl : l.Nodup) (sbi : Nat) :
    listMoveTail l sbi = l.filter (· ∉ [sbi]) ++ [sbi] := by
  simp only [listMoveTail, hl.erase_eq_filter]
  exact congrArg (· ++ [sbi]) (List.filter_congr fun x _ => by by_cases h : x = sbi <;> simp [h])

theorem filter_moveTail (l : List Nat) {b : Nat} {S : List Nat} (hb : b ∉ S) :
    (l.filter (· ∉ [b]) ++ [b]).filter (· ∉ S) ++ S = l.filter (· ∉ b :: S) ++ b :: S := by
  simp [List.filter_append, List.filter_filter, hb, Bool.and_comm]

/-- What a pass does: the records it serves are a sublist of the ones it visits; the list ends as
the other records, in their order, followed by the served ones; the served ones, and only they,
are stamped. -/
theorem pass_spec : ∀ (B A P : List Nat) (s : Walk), s.list = A ++ B ++ P → s.list.Nodup →
    ∃ δ, (pass w e nr runNo B s).log = s.log ++ δ ∧ (served δ).Sublist B ∧
      (pass w e nr runNo B s).list = s.list.filter (· ∉ served δ) ++ served δ ∧
      ∀ x, (pass w e nr runNo B s).mark x = if x ∈ served δ then runNo else s.mark x
  | [], A, P, s, _, hnd => ⟨[], by simp [pass, List.filter_eq_self.mpr]⟩
  | b :: B, A, P, s, hs, hnd => by
    have hb : b ∉ A ∧ b ∉ B ∧ b ∉ P := by
      have := (List.nodup_middle.mp (by simpa [hs] using hnd) |> List.nodup_cons.mp).1
      simp_all
    simp only [pass]
    split
    · exact ⟨[], by simp [List.filter_eq_self.mpr]⟩
    split
    · obtain ⟨δ, hlog, hsub, hlist, hmark⟩ :=
        pass_spec B (A ++ [b]) P { s with log := s.log ++ [.busy b] } (by simp [hs]) hnd
      exact ⟨.busy b :: δ, by simp [hlog], by simpa using hsub.cons b, by simpa using hlist,
        by simpa using hmark⟩
    · obtain ⟨δ₀, h₀, hs₀⟩ := serve_log w e nr runNo b s
      have hmove : listMoveTail s.list b = A ++ B ++ (P ++ [b]) := by
        rw [hs, List.append_assoc, List.cons_append, listMoveTail_mid A _ hb.1]; simp
      dsimp only
      rw [serve_list]
      split
      · refine ⟨δ₀, by simp [h₀], by simp [hs₀], by simp [hs₀, listMoveTail_eq_filter hnd], ?_⟩
        intro x; by_cases hx : x = b <;> simp [hs₀, hx]
      · obtain ⟨δ, hlog, hsub, hlist, hmark⟩ := pass_spec B A (P ++ [b])
          { serve w e nr runNo b s with list := listMoveTail s.list b } hmove
          (listMoveTail_nodup hnd (by simp [hs]))
        have hbS : b ∉ served δ := fun h => hb.2.1 (hsub.subset h)
        dsimp only at hlog hlist hmark
        refine ⟨δ₀ ++ δ, by rw [hlog, h₀, List.append_assoc], by simpa [hs₀] using hsub.cons₂ b, ?_, ?_⟩
        · rw [hlist]; simp only [listMoveTail_eq_filter hnd, served_append, hs₀]
          exact filter_moveTail s.list hbS
        · intro x; rw [hmark]; by_cases hx : x = b <;> simp [hs₀, hx, hbS]

/-- The records a scan of `L` serves when none of them carries the run id: in list order, those
whose trylock succeeds, up to and including the first after which `freed ≥ nr`. -/
def servedBy : List Nat → Walk → List Nat
  | [], _ => []
  | sbi :: L, s =>
    if e.trylock sbi then
      let s := serve w e nr runNo sbi s
      if nr ≤ s.freed then [sbi] else sbi :: servedBy L s
    else servedBy L s

theorem servedBy_congr : ∀ (B : List Nat) {s s' : Walk}, s.freed = s'.freed →
    servedBy w e nr runNo B s = servedBy w e nr runNo B s'
  | [], _, _, _ => rfl
  | b :: B, s, s', h => by
    have hb := serve_freed_congr w e nr runNo b h
    simp only [servedBy, hb, servedBy_congr B hb, servedBy_congr B h]

theorem pass_served_fresh : ∀ (B A P : List Nat) (s : Walk), s.list = A ++ B ++ P →
    s.list.Nodup → (∀ x ∈ B, s.mark x ≠ runNo) →
    ∃ δ, (pass w e nr runNo B s).log = s.log ++ δ ∧ served δ = servedBy w e nr runNo B s
  | [], _, _, s, _, _, _ => ⟨[], by simp [pass, servedBy]⟩
  | b :: B, A, P, s, hs, hnd, hfresh => by
    have hb : b ∉ A ∧ b ∉ B ∧ b ∉ P := by
      have := (List.nodup_middle.mp (by simpa [hs] using hnd) |> List.nodup_cons.mp).1
      simp_all
    simp only [pass, servedBy, if_neg (hfresh b (by simp))]
    cases ht : e.trylock b
    · simp only [Bool.false_eq_true, ↓reduceIte]
      obtain ⟨δ, hlog, hδ⟩ := pass_served_fresh B (A ++ [b]) P { s with log := s.log ++ [.busy b] }
        (by simp [hs]) hnd (fun x hx => hfresh x (by simp [hx]))
      exact ⟨.busy b :: δ, by simp [hlog], by rw [served_busy, hδ]; exact servedBy_congr w e nr runNo B rfl⟩
    · obtain ⟨δ₀, h₀, hs₀⟩ := serve_log w e nr runNo b s
      have hmove : listMoveTail s.list b = A ++ B ++ (P ++ [b]) := by
        rw [hs, List.append_assoc, List.cons_append, listMoveTail_mid A _ hb.1]; simp
      simp only [Bool.true_eq_false, ↓reduceIte, serve_list]
      split
      · exact ⟨δ₀, by simp [h₀], by simp [hs₀]⟩
      · obtain ⟨δ, hlog, hδ⟩ := pass_served_fresh B A (P ++ [b])
          { serve w e nr runNo b s with list := listMoveTail s.list b } hmove
          (listMoveTail_nodup hnd (by simp [hs])) (fun x hx => by
            have : x ≠ b := fun h => hb.2.1 (h ▸ hx)
            simpa [Function.update_noteq this] using hfresh x (by simp [hx]))
        exact ⟨δ₀ ++ δ, by rw [hlog, h₀, List.append_assoc], by
          rw [served_append, hs₀, hδ]; exact congrArg _ (servedBy_congr w e nr runNo B rfl)⟩

theorem f3fsShrinkScan_eq (r : Registry) (hl : r.list.Nodup) :
    f3fsShrinkScan w e nr r =
      let s := pass w e nr (nextRunNo r.runNo) r.list r.walk
      some (s.freed, ⟨s.list, nextRunNo r.runNo, s.mark⟩, s.log) := by
  simp only [f3fsShrinkScan]
  rw [scanLoop_pass w e nr _ r.list [] [] r.walk _ _ (by simp [Registry.walk]) hl (by simp)
    (by simp) (by simp)]
  rfl

theorem f3fsShrinkScan_spec (r : Registry) (hl : r.list.Nodup) :
    ∃ freed r' log, f3fsShrinkScan w e nr r = some (freed, r', log) ∧
      (served log).Sublist r.list ∧ r'.list = r.list.filter (· ∉ served log) ++ served log ∧
      r'.runNo = nextRunNo r.runNo ∧
      ∀ x, r'.mark x = if x ∈ served log then nextRunNo r.runNo else r.mark x := by
  obtain ⟨δ, hlog, hsub, hlist, hmark⟩ :=
    pass_spec w e nr (nextRunNo r.runNo) r.list [] [] r.walk (by simp [Registry.walk]) hl
  simp only [Registry.walk, List.nil_append] at hlog
  exact ⟨_, _, _, f3fsShrinkScan_eq w e nr r hl, hlog ▸ hsub, hlog ▸ hlist, rfl, hlog ▸ hmark⟩

theorem pass_served_prefix : ∀ (B : List Nat) (s : Walk), (∀ x ∈ B, e.trylock x = true) →
    ∃ δ, (pass w e nr runNo B s).log = s.log ++ δ ∧ served δ <+: B
  | [], s, _ => ⟨[], by simp [pass]⟩
  | b :: B, s, hB => by
    simp only [List.mem_cons, forall_eq_or_imp] at hB
    simp only [pass, hB.1, Bool.true_eq_false, ↓reduceIte]
    split
    · exact ⟨[], by simp⟩
    obtain ⟨δ₀, h₀, hs₀⟩ := serve_log w e nr runNo b s
    dsimp only
    split
    · exact ⟨δ₀, h₀, by simp [hs₀]⟩
    · obtain ⟨δ, hlog, hpre⟩ := pass_served_prefix B _ hB.2
      refine ⟨δ₀ ++ δ, by rw [hlog]; simp [h₀], ?_⟩
      simpa [hs₀] using hpre

theorem f3fsShrinkScan_prefix {r r' : Registry} {freed : Nat} {log : List Act} (hl : r.list.Nodup)
    (htry : ∀ x ∈ r.list, e.trylock x = true) (h : f3fsShrinkScan w e nr r = some (freed, r', log)) :
    served log <+: r.list := by
  rw [f3fsShrinkScan_eq w e nr r hl] at h
  obtain ⟨δ, hlog, hpre⟩ := pass_served_prefix w e nr (nextRunNo r.runNo) r.list r.walk htry
  simp only [Option.some.injEq, Prod.mk.injEq] at h
  rw [← h.2.2, hlog]
  simpa [Registry.walk] using hpre

/-- **A sequential scan** (shrinker.c, lines 73-122).  On a duplicate-free list none of whose
records carries the fresh run id, the loop ends within `|list| + 1` passes (the bound
`f3fsShrinkScan` runs it with); the records it serves are `servedBy`: in list order, those whose
trylock succeeds, up to and including the first after which `freed ≥ nr`.  Each is served once
and stamped with the run id, no other mark changes, and the list ends as the records not served
followed by the served ones, each part in its original order. -/
theorem shrinkScan_serves (r : Registry) (hl : r.list.Nodup)
    (hfresh : ∀ x ∈ r.list, r.mark x ≠ nextRunNo r.runNo) :
    ∃ freed r' log, f3fsShrinkScan w e nr r = some (freed, r', log) ∧
      served log = servedBy w e nr (nextRunNo r.runNo) r.list r.walk ∧
      (served log).Nodup ∧ (served log).Sublist r.list ∧
      r'.list = r.list.filter (· ∉ served log) ++ served log ∧
      ∀ x, r'.mark x = if x ∈ served log then nextRunNo r.runNo else r.mark x := by
  obtain ⟨δ, hlog, hsub, hlist, hmark⟩ :=
    pass_spec w e nr (nextRunNo r.runNo) r.list [] [] r.walk (by simp [Registry.walk]) hl
  obtain ⟨δ', hlog', hδ'⟩ := pass_served_fresh w e nr (nextRunNo r.runNo) r.list [] [] r.walk
    (by simp [Registry.walk]) hl hfresh
  have h : served (pass w e nr (nextRunNo r.runNo) r.list r.walk).log = served δ := by
    rw [hlog]; simp [Registry.walk]
  have h' : served δ = served δ' := by
    rw [← h, hlog']; simp [Registry.walk]
  refine ⟨_, _, _, f3fsShrinkScan_eq w e nr r hl, ?_, ?_, ?_, ?_, ?_⟩ <;> simp only [h]
  · rw [h', hδ']
  · exact hsub.nodup hl
  · exact hsub
  · exact hlist
  · exact hmark

end

theorem shrinkScan_serves_pair :
    ([0, 1] : List Nat).Nodup ∧ (∀ x ∈ ([0, 1] : List Nat), (0 : Nat) ≠ nextRunNo 0) ∧
    ∃ freed r' log, f3fsShrinkScan 64 ⟨fun _ => true, fun _ _ n => n⟩ 3 ⟨[0, 1], 0, fun _ => 0⟩ =
        some (freed, r', log) ∧
      served log = servedBy 64 ⟨fun _ => true, fun _ _ n => n⟩ 3 (nextRunNo 0) [0, 1]
        ⟨[0, 1], fun _ => 0, 0, []⟩ ∧
      (served log).Nodup ∧ (served log).Sublist [0, 1] ∧
      r'.list = ([0, 1] : List Nat).filter (· ∉ served log) ++ served log ∧
      ∀ x, r'.mark x = if x ∈ served log then nextRunNo 0 else 0 :=
  ⟨by decide, by decide,
    shrinkScan_serves 64 ⟨fun _ => true, fun _ _ n => n⟩ 3 ⟨[0, 1], 0, fun _ => 0⟩ (by decide)
      (by decide)⟩

end F3fs
