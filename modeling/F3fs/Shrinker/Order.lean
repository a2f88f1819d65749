import F3fs.Shrinker.Registry
import Mathlib.Data.List.Rotate

/-!
# Least-recently-serviced order

`f3fs_join_shrinker` adds a record at the tail and every record a scan processes is moved to
the tail (`list_move_tail`, line 115).  So `f3fs_list` runs from the record serviced longest ago
to the one serviced last.  To say so, a `Timed` registry carries a service clock: each join and
each processing is one tick, and `last x` is the tick of `x`'s last service.  The ghost fields
never feed back into the registry (`Timed.run_reg`).

* `Timed.Ordered`     the list is strictly increasing in `last`, and every `last` is in the past;
* `Timed.run_ordered` every run keeps it;
* `CyclicFrom L s H`  `H` is `L` repeated cyclically, read from position `s`;
* `Timed.run_stretch` a stretch of scans that meet no busy record processes such a reading;
* `shrinkOrder_lru`   the whole property on every run from the empty registry.
-/

namespace F3fs

/-! ## Service times -/

/-- The records of `S` serviced one after another from tick `t`. -/
def stampAll : List Nat → Nat → (Nat → Nat) → Nat → Nat
  | [], _, last => last
  | x :: S, t, last => stampAll S (t + 1) (Function.update last x t)

theorem stampAll_not_mem {x : Nat} : ∀ {S : List Nat}, x ∉ S → ∀ t last,
    stampAll S t last x = last x
  | [], _, _, _ => rfl
  | y :: S, h, t, last => by
    simp only [List.mem_cons, not_or] at h
    rw [stampAll, stampAll_not_mem h.2, Function.update_noteq h.1]

theorem stampAll_mem : ∀ {S : List Nat}, S.Nodup → ∀ {x}, x ∈ S → ∀ t last,
    t ≤ stampAll S t last x ∧ stampAll S t last x < t + S.length
  | y :: S, hS, x, hx, t, last => by
    rw [List.nodup_cons] at hS
    rcases List.mem_cons.mp hx with rfl | hx
    · rw [stampAll, stampAll_not_mem hS.1, Function.update_same]; simp
    · have := stampAll_mem hS.2 hx (t + 1) (Function.update last y t)
      rw [stampAll, List.length_cons]; omega

theorem stampAll_pairwise : ∀ {S : List Nat}, S.Nodup → ∀ t last,
    S.Pairwise (fun a b => stampAll S t last a < stampAll S t last b)
  | [], _, _, _ => .nil
  | y :: S, hS, t, last => by
    rw [List.nodup_cons] at hS
    refine List.Pairwise.cons (fun b hb => ?_) (stampAll_pairwise hS.2 _ _)
    rw [stampAll, stampAll_not_mem hS.1, Function.update_same]
    exact (stampAll_mem hS.2 hb (t + 1) _).1

theorem pairwise_requeue {l S : List Nat} {last : Nat → Nat} {t : Nat}
    (hl : l.Pairwise (fun a b => last a < last b)) (ht : ∀ x ∈ l, last x < t) (hS : S.Nodup) :
    (l.filter (· ∉ S) ++ S).Pairwise (fun a b => stampAll S t last a < stampAll S t last b) := by
  have hkeep : ∀ x ∈ l.filter (· ∉ S), stampAll S t last x = last x := fun x hx =>
    stampAll_not_mem (by simpa using (List.mem_filter.mp hx).2) t last
  refine List.pairwise_append.mpr ⟨?_, stampAll_pairwise hS t last, fun a ha b hb => ?_⟩
  · exact (hl.sublist (List.filter_sublist _)).imp_of_mem fun ha hb h => by
      rwa [hkeep _ ha, hkeep _ hb]
  · rw [hkeep a ha]
    exact Nat.lt_of_lt_of_le (ht a (List.mem_filter.mp ha).1) (stampAll_mem hS hb t last).1

/-! ## The timed registry -/

/-- The registry with its service clock. -/
structure Timed where
  reg : Registry
  /-- the number of services so far -/
  clock : Nat
  /-- the tick of each record's last join or processing -/
  last : Nat → Nat
  /-- the records processed so far, in order -/
  hist : List Nat

/-- The records a call services: the joined record, or those a scan processes. -/
def Call.serviced : Call → List Act → List Nat
  | .join sbi, _ => [sbi]
  | _, log => served log

/-- The empty registry at tick 0. -/
def Timed.init : Timed := ⟨Registry.init, 0, fun _ => 0, []⟩

section
variable (w : Nat)

/-- One call, with its services ticked in order. -/
def Timed.call (t : Timed) (c : Call) : Option Timed :=
  (t.reg.call w c).map fun p =>
    ⟨p.1, t.clock + (c.serviced p.2).length, stampAll (c.serviced p.2) t.clock t.last,
      t.hist ++ served p.2⟩

def Timed.run : List Call → Timed → Option Timed
  | [], t => some t
  | c :: cs, t => (t.call w c).bind (Timed.run cs)

@[simp] theorem Timed.run_cons (c : Call) (cs : List Call) (t : Timed) :
    t.run w (c :: cs) = (t.call w c).bind (Timed.run w cs) := rfl

/-- The clock is a ghost: a timed run makes the registry's run. -/
theorem Timed.run_reg : ∀ (cs : List Call) (t : Timed),
    (t.run w cs).map Timed.reg = t.reg.run w cs
  | [], _ => rfl
  | c :: cs, t => by
    simp only [run_cons, Registry.run_cons, call, Option.bind_map, Option.map_bind]
    congr 1; funext p; exact run_reg cs _

theorem Timed.call_eq {t t' : Timed} {c : Call} (h : t.call w c = some t') :
    ∃ log, t.reg.call w c = some (t'.reg, log) ∧ t'.clock = t.clock + (c.serviced log).length ∧
      t'.last = stampAll (c.serviced log) t.clock t.last ∧ t'.hist = t.hist ++ served log := by
  simp only [call, Option.map_eq_some'] at h
  obtain ⟨⟨r, log⟩, h₁, rfl⟩ := h
  exact ⟨log, h₁, rfl, rfl, rfl⟩

end

/-- The list is in strictly increasing order of last service, all of it in the past. -/
def Timed.Ordered (t : Timed) : Prop :=
  t.reg.list.Pairwise (fun a b => t.last a < t.last b) ∧ ∀ x ∈ t.reg.list, t.last x < t.clock

theorem Timed.Ordered.nodup {t : Timed} (h : t.Ordered) : t.reg.list.Nodup :=
  h.1.imp fun hab he => by subst he; exact Nat.lt_irrefl _ hab

section
variable {w : Nat}

theorem Timed.Ordered.requeue {t : Timed} (h : t.Ordered) {S : List Nat} (hS : S.Nodup) :
    (t.reg.list.filter (· ∉ S) ++ S).Pairwise
        (fun a b => stampAll S t.clock t.last a < stampAll S t.clock t.last b) ∧
      ∀ x ∈ t.reg.list.filter (· ∉ S) ++ S, stampAll S t.clock t.last x < t.clock + S.length := by
  refine ⟨pairwise_requeue h.1 h.2 hS, fun x hx => ?_⟩
  by_cases hxS : x ∈ S
  · exact (stampAll_mem hS hxS _ _).2
  · rw [stampAll_not_mem hxS]
    have := h.2 x (List.mem_filter.mp ((List.mem_append.mp hx).resolve_right hxS)).1
    omega

theorem Timed.call_ordered {t t' : Timed} {c : Call} (h : t.Ordered) (hc : t.call w c = some t') :
    t'.Ordered := by
  obtain ⟨log, hreg, hclock, hlast, -⟩ := Timed.call_eq w hc
  rcases Registry.call_cases w h.nodup hreg with ⟨sbi, rfl, hs, hr, -⟩ | ⟨sbi, rfl, hr, rfl⟩ |
    ⟨rfl, hr, rfl⟩ | ⟨e, nr, rfl, hsub, hlist, -⟩
  · have hl : t.reg.list.filter (· ∉ [sbi]) = t.reg.list :=
      List.filter_eq_self.mpr fun x hx => by
        simp only [List.mem_singleton, decide_eq_true_eq]; rintro rfl; exact hs hx
    have := h.requeue (List.nodup_singleton sbi)
    rw [hl] at this
    simp only [Call.serviced] at hclock hlast
    rw [Timed.Ordered, hr, hclock, hlast]
    exact this
  · simp only [Call.serviced, served_nil, stampAll, List.length_nil, Nat.add_zero] at hclock hlast
    rw [Timed.Ordered, hr, hclock, hlast]
    exact ⟨h.1.sublist (List.erase_sublist _ _), fun x hx => h.2 x (List.mem_of_mem_erase hx)⟩
  · simp only [Call.serviced, served_nil, stampAll, List.length_nil, Nat.add_zero] at hclock hlast
    rw [Timed.Ordered, hr, hclock, hlast]
    exact h
  · simp only [Call.serviced] at hclock hlast
    rw [Timed.Ordered, hlist, hclock, hlast]
    exact h.requeue (hsub.nodup h.nodup)

theorem Timed.run_ordered : ∀ (cs : List Call) {t t' : Timed}, t.Ordered →
    t.run w cs = some t' → t'.Ordered
  | [], _, _, h, hr => by cases hr; exact h
  | c :: cs, t, t', h, hr => by
    simp only [Timed.run_cons, Option.bind_eq_some] at hr
    obtain ⟨t₁, h₁, h₂⟩ := hr
    exact run_ordered cs (call_ordered h h₁) h₂

end

/-! ## Stretches of scans with no busy record -/

/-- `H` is `L` repeated cyclically, read from position `s`. -/
def CyclicFrom (L : List Nat) (s : Nat) (H : List Nat) : Prop :=
  ∀ i < H.length, H[i]? = L[(s + i) % L.length]?

theorem CyclicFrom.revisit {L H : List Nat} {s : Nat} (hL : L.Nodup) (hH : CyclicFrom L s H)
    {i j x : Nat} (hij : i < j) (hi : H[i]? = some x) (hj : H[j]? = some x) {y : Nat}
    (hy : y ∈ L) (hyx : y ≠ x) : ∃ k : Nat, i < k ∧ k < j ∧ H[k]? = some y := by
  have hjl : j < H.length := (List.getElem?_eq_some_iff.mp hj).1
  have hn : 0 < L.length := List.length_pos_of_mem hy
  rw [hH i (by omega)] at hi
  rw [hH j hjl] at hj
  have hmod : (s + i) % L.length = (s + j) % L.length :=
    List.getElem?_inj (Nat.mod_lt _ hn) hL (hi.trans hj.symm)
  have hgap : i + L.length ≤ j := by
    have hd : L.length ∣ j - i := Nat.dvd_of_mod_eq_zero (by
      have := Nat.sub_mod_eq_zero_of_mod_eq hmod.symm
      rwa [Nat.add_sub_add_left] at this)
    have := Nat.le_of_dvd (by omega) hd
    omega
  obtain ⟨q, hq⟩ := List.mem_iff_getElem?.mp (List.mem_rotate.mpr hy : y ∈ L.rotate (s + i + 1))
  have hqn : q < L.length := by
    simpa using (List.getElem?_eq_some_iff.mp hq).1
  rw [List.getElem?_rotate hqn] at hq
  have hqx : q + 1 < L.length := by
    refine Nat.lt_of_le_of_ne hqn fun hq1 => hyx ?_
    have he : (q + (s + i + 1)) % L.length = (s + i) % L.length := by
      rw [← Nat.add_mod_right (s + i)]; congr 1; omega
    rw [he, hi] at hq
    exact (Option.some.inj hq).symm
  refine ⟨i + 1 + q, by omega, by omega, ?_⟩
  rw [hH _ (by omega), ← hq]
  congr 2
  omega

/-- A stretch of scans that meet no busy record of `L`: no join, no leave, no failed trylock. -/
def FreeScans (L : List Nat) (cs : List Call) : Prop :=
  ∀ c ∈ cs, ∃ e nr, c = .scan e nr ∧ ∀ x ∈ L, e.trylock x = true

theorem filter_not_mem_take {l : List Nat} (hl : l.Nodup) (m : Nat) :
    l.filter (· ∉ l.take m) = l.drop m := by
  conv_lhs => rw [← List.take_append_drop m l]
  have hdis := List.disjoint_take_drop hl (le_refl m)
  rw [List.filter_append, List.filter_eq_nil_iff.mpr (fun x hx => by simpa using hx),
    List.filter_eq_self.mpr (fun x hx => by simpa using fun h => hdis h hx), List.nil_append]

section
variable {w : Nat}

theorem Registry.call_rotate {r r' : Registry} {e : ShrinkEnv} {nr : Nat} {log : List Act}
    (hl : r.list.Nodup) (htry : ∀ x ∈ r.list, e.trylock x = true)
    (h : r.call w (.scan e nr) = some (r', log)) :
    served log = r.list.take (served log).length ∧ (served log).length ≤ r.list.length ∧
      r'.list = r.list.rotate (served log).length := by
  have hpre : served log <+: r.list := by
    simp only [Registry.call, Option.map_eq_some'] at h
    obtain ⟨⟨freed, r₁, log₁⟩, hs, he⟩ := h
    cases he
    exact f3fsShrinkScan_prefix w e nr hl htry hs
  obtain ⟨e', nr', hc, -, hlist, -⟩ := (Registry.call_cases w hl h).resolve_left
    (by rintro ⟨_, ⟨⟩, _⟩) |>.resolve_left (by rintro ⟨_, ⟨⟩, _⟩) |>.resolve_left (by rintro ⟨⟨⟩, _⟩)
  have htake := List.prefix_iff_eq_take.mp hpre
  refine ⟨htake, hpre.length_le, ?_⟩
  rw [hlist, List.rotate_eq_drop_append_take hpre.length_le, ← filter_not_mem_take hl, ← htake]

/-- A stretch of scans that meet no busy record of `L`, from a list that is `L` rotated by `j`,
processes `L` read cyclically from `j`. -/
theorem Timed.run_stretch {L : List Nat} (hL : L.Nodup) : ∀ (cs : List Call) {t t' : Timed}
    (j : Nat), t.reg.list = L.rotate j → FreeScans L cs → t.run w cs = some t' →
    ∃ H, t'.hist = t.hist ++ H ∧ CyclicFrom L j H
  | [], t, t', j, _, _, hr => by
    cases hr; exact ⟨[], by simp, fun i hi => absurd hi (Nat.not_lt_zero _)⟩
  | c :: cs, t, t', j, hlist, hfree, hr => by
    obtain ⟨e, nr, rfl, htry⟩ := hfree _ (List.mem_cons_self _ _)
    simp only [Timed.run_cons, Option.bind_eq_some] at hr
    obtain ⟨t₁, h₁, h₂⟩ := hr
    obtain ⟨log, hreg, -, -, hhist⟩ := Timed.call_eq w h₁
    have hnd : t.reg.list.Nodup := hlist ▸ List.nodup_rotate.mpr hL
    obtain ⟨htake, hlen, hrot⟩ := Registry.call_rotate hnd
      (fun x hx => htry x (List.mem_rotate.mp (hlist ▸ hx))) hreg
    rw [hlist, List.rotate_rotate] at hrot
    obtain ⟨H, hH, hcyc⟩ := run_stretch hL cs (j + (served log).length) hrot
      (fun c hc => hfree c (List.mem_cons_of_mem _ hc)) h₂
    refine ⟨served log ++ H, by rw [hH, hhist, List.append_assoc], fun i hi => ?_⟩
    rcases Nat.lt_or_ge i (served log).length with hi' | hi'
    · have hiL : i < L.length := by
        rw [hlist, List.length_rotate] at hlen; omega
      rw [List.getElem?_append_left hi', htake, List.getElem?_take_of_lt hi', hlist,
        List.getElem?_rotate hiL, Nat.add_comm]
    · rw [List.getElem?_append_right hi', hcyc _ (by simp at hi; omega)]
      congr 2
      omega

end

/-- **Least-recently-serviced order** (shrinker.c, lines 115 and 127).  In every sequential run
from the empty registry, with any trylock outcomes and shrink results:
* `f3fs_list` is in strictly increasing order of each record's last service (its join or the
  end of its last processing);
* a scan processes records in that order;
* a stretch of scans with no join, no leave and no failed trylock processes the list read
  cyclically from its head, so no record is processed twice before every other registered
  record has been processed. -/
theorem shrinkOrder_lru (w : Nat) (cs : List Call) (t : Timed)
    (ht : Timed.init.run w cs = some t) :
    t.reg.list.Pairwise (fun a b => t.last a < t.last b) ∧
    (∀ e nr freed r' log, f3fsShrinkScan w e nr t.reg = some (freed, r', log) →
      (served log).Pairwise (fun a b => t.last a < t.last b)) ∧
    ∀ ss t', FreeScans t.reg.list ss → t.run w ss = some t' →
      ∃ H, t'.hist = t.hist ++ H ∧ CyclicFrom t.reg.list 0 H ∧
        ∀ i j x : Nat, i < j → H[i]? = some x → H[j]? = some x →
          ∀ y ∈ t.reg.list, y ≠ x → ∃ k : Nat, i < k ∧ k < j ∧ H[k]? = some y := by
  have hord : t.Ordered := Timed.run_ordered cs ⟨.nil, fun _ h => absurd h (List.not_mem_nil _)⟩ ht
  refine ⟨hord.1, fun e nr freed r' log h => ?_, fun ss t' hfree hr => ?_⟩
  · obtain ⟨_, _, _, hs, hsub, -⟩ := f3fsShrinkScan_spec w e nr t.reg hord.nodup
    rw [hs, Option.some.injEq, Prod.mk.injEq, Prod.mk.injEq] at h
    rw [← h.2.2]
    exact hord.1.sublist hsub
  · obtain ⟨H, hH, hcyc⟩ := Timed.run_stretch hord.nodup ss 0 (List.rotate_zero _).symm hfree hr
    exact ⟨H, hH, hcyc, fun i j x hij hi hj y hy hyx => hcyc.revisit hord.nodup hij hi hj hy hyx⟩

theorem shrinkOrder_lru_three :
    ∃ t, Timed.init.run 64 [.join 0, .join 1, .join 2, .scan freeEnv 1] = some t ∧
      t.reg.list.Pairwise (fun a b => t.last a < t.last b) ∧
      (∀ e nr freed r' log, f3fsShrinkScan 64 e nr t.reg = some (freed, r', log) →
        (served log).Pairwise (fun a b => t.last a < t.last b)) ∧
      ∀ ss t', FreeScans t.reg.list ss → t.run 64 ss = some t' →
        ∃ H, t'.hist = t.hist ++ H ∧ CyclicFrom t.reg.list 0 H ∧
          ∀ i j x : Nat, i < j → H[i]? = some x → H[j]? = some x →
            ∀ y ∈ t.reg.list, y ≠ x → ∃ k : Nat, i < k ∧ k < j ∧ H[k]? = some y :=
  ⟨_, rfl, shrinkOrder_lru 64 [.join 0, .join 1, .join 2, .scan freeEnv 1] _ rfl⟩

end F3fs
