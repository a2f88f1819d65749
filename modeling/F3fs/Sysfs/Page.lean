import F3fs.Sysfs.Store
import Mathlib.Data.List.Nodup
import Mathlib.Data.String.Basic

/-!
# What the shows print into a page

A show fills one page of `PAGE_SIZE` bytes with a chain of
`len += scnprintf(buf + len, PAGE_SIZE - len, ...)`: each call prints at most what is left of
the page, less the terminating zero.

* `scnprintfChain_cut`   a chain of calls leaves the first `PAGE_SIZE - 1` characters of all it
                         prints, so `extensionListShow`, which cuts the whole text once, is the
                         chain of lines 285-304 (`extensionListShow_chain`).

`features_show` (lines 147-196) prints the on-disk features of an instance: each name after a
`", "` once something is printed, then `pin_file` and a newline.

* `featuresAppend`, `featuresShow`   the printer, with `PAGE_SIZE` a parameter;
* `featuresShow_fold`    while the page has room, the chain of calls prints every name it tests;
* `featuresShow_roundTrip`   on a page of at least 185 bytes nothing is cut: the page holds the
                         names of the features set, in the order of the code, then `pin_file`,
                         joined by `", "`, and a newline, and a reader who cuts the line at its
                         commas (`parseFeatures`) gets exactly those names back.
-/

namespace F3fs

/-! ## The page -/

/-- `scnprintf(buf, size, ...)` printing the text `s`: what it writes, at most `size - 1`
characters (the last byte takes the terminating zero) and nothing when `size = 0`; it returns the
number written. -/
def scnprintf (size : Nat) (s : List Char) : List Char := s.take (size - 1)

/-- `len += scnprintf(buf + len, PAGE_SIZE - len, ...)` for each text in turn, on an empty page of
`P` bytes. -/
def scnprintfChain (P : Nat) (texts : List (List Char)) : List Char :=
  texts.foldl (fun buf s => buf ++ scnprintf (P - buf.length) s) []

theorem take_take_append (m : Nat) (s t : List Char) : (s.take m ++ t).take m = (s ++ t).take m := by
  rcases le_total s.length m with h | h
  · rw [List.take_of_length_le h]
  · simp [List.take_append_eq_append_take, List.length_take, Nat.min_eq_left h]; omega

theorem take_append_take (buf s t : List Char) (n : Nat) :
    (buf ++ (s.take (n - buf.length) ++ t)).take n = (buf ++ (s ++ t)).take n := by
  rw [List.take_append_eq_append_take, take_take_append]
  conv_rhs => rw [List.take_append_eq_append_take]

/-- From a page holding `buf`, no longer than `P - 1`, the chain leaves the cut of all it
prints. -/
theorem scnprintfChain_cut (P : Nat) : ∀ (texts : List (List Char)) (buf : List Char),
    buf.length ≤ P - 1 →
    texts.foldl (fun buf s => buf ++ scnprintf (P - buf.length) s) buf =
      (buf ++ texts.flatten).take (P - 1)
  | [], buf, h => by simp [List.take_of_length_le h]
  | s :: ss, buf, h => by
    have hlen : (buf ++ scnprintf (P - buf.length) s).length ≤ P - 1 := by
      simp only [List.length_append, scnprintf, List.length_take]; omega
    have e : P - buf.length - 1 = P - 1 - buf.length := by omega
    rw [List.foldl_cons, scnprintfChain_cut P ss _ hlen, List.flatten_cons, scnprintf, e,
      List.append_assoc, take_append_take]

/-- Lines 285-304 as the code prints them: `cold file extension:`, each cold extension on its
line, `hot file extension:`, each hot one, one `scnprintf` each; `none` past the end of the
array, as in `extensionListShow`. -/
def extensionListShowChain (k : Consts) (x : ExtTable) : Option String := do
  let cold ← (List.range x.coldCount).mapM fun i => x.list[i]?
  let hot ← (List.range x.hotCount).mapM fun i => x.list[x.coldCount + i]?
  pure ⟨scnprintfChain k.pageSize ("cold file extension:\n".toList ::
    cold.map (fun n => n.toList ++ ['\n']) ++
    "hot file extension:\n".toList :: hot.map (fun n => n.toList ++ ['\n']))⟩

/-- **The chain is one cut.**  For every extension table and every page size, the chain of
`scnprintf` calls of lines 285-304 prints what `extensionListShow` prints: the first
`PAGE_SIZE - 1` characters of the whole text. -/
theorem extensionListShow_chain (k : Consts) (x : ExtTable) :
    extensionListShowChain k x = extensionListShow k x := by
  simp only [extensionListShowChain, extensionListShow]
  congr 1; funext cold; congr 1; funext hot
  rw [scnprintfChain, scnprintfChain_cut _ _ [] (Nat.zero_le _)]
  simp [String.toList, Function.comp_def, String.data_join]

/-! ## `features_show` -/

/-- The on-disk features sysfs.c tests, by their `F3FS_FEATURE_*` flag. -/
inductive Feature where
  | encrypt | blkzoned | extraAttr | prjquota | inodeChksum | flexibleInlineXattr | quotaIno
  | inodeCrtime | lostFound | verity | sbChksum | casefold | ro | compression
  deriving DecidableEq, Repr

/-- The features `features_show` tests, in its order, with the name it prints for each
(lines 151-192). -/
def featuresShowNames : List (Feature × String) :=
  [(.encrypt, "encryption"), (.blkzoned, "blkzoned"), (.extraAttr, "extra_attr"),
    (.prjquota, "projquota"), (.inodeChksum, "inode_checksum"),
    (.flexibleInlineXattr, "flexible_inline_xattr"), (.quotaIno, "quota_ino"),
    (.inodeCrtime, "inode_crtime"), (.lostFound, "lost_found"), (.verity, "verity"),
    (.sbChksum, "sb_checksum"), (.casefold, "casefold"), (.ro, "readonly"),
    (.compression, "compression")]

section
variable (P : Nat)

/-- `len += scnprintf(buf + len, PAGE_SIZE - len, "%s%s", len ? ", " : "", name)` on the page
`buf`, of length `len`. -/
def featuresAppend (buf : List Char) (name : String) : List Char :=
  buf ++ scnprintf (P - buf.length) ((if buf.length = 0 then [] else [',', ' ']) ++ name.toList)

/-- `features_show` (lines 147-196) on a page of `PAGE_SIZE = P` bytes, with `has f` for
`F3FS_HAS_FEATURE(sbi, f)`: the text in the page, whose length the call returns.  Its first call,
`"%s"` at `len = 0`, prints what the others print at `len = 0`. -/
def featuresShow (has : Feature → Bool) : List Char :=
  let buf := featuresShowNames.foldl
    (fun buf e => if has e.1 then featuresAppend P buf e.2 else buf) []
  let buf := featuresAppend P buf "pin_file"
  buf ++ scnprintf (P - buf.length) ['\n']

end

/-- The names the line should list: the features set, in the order of the code, then
`pin_file`. -/
def listedFeatures (has : Feature → Bool) : List String :=
  (featuresShowNames.filter fun e => has e.1).map (·.2) ++ ["pin_file"]

/-- How a reader takes the line apart: the text up to its newline, cut at each comma, with the
blanks before each name dropped. -/
def parseFeatures (text : List Char) : List (List Char) :=
  ((text.takeWhile (· != '\n')).splitOn ',').map (List.dropWhile (· == ' '))

/-! ## Joining and cutting a line -/

theorem intercalate_cons (sep n : List Char) : ∀ ns : List (List Char),
    sep.intercalate (n :: ns) = n ++ ns.flatMap (sep ++ ·)
  | [] => by simp [List.intercalate]
  | m :: ms => by
    rw [show sep.intercalate (n :: m :: ms) = n ++ sep ++ sep.intercalate (m :: ms) by
      simp [List.intercalate], intercalate_cons sep m ms]
    simp

theorem intercalate_append_single (sep n : List Char) {ns : List (List Char)} (hns : ns ≠ []) :
    sep.intercalate (ns ++ [n]) = sep.intercalate ns ++ sep ++ n := by
  obtain ⟨a, as, rfl⟩ := List.exists_cons_of_ne_nil hns
  simp [intercalate_cons]

theorem length_intercalate_snoc (n : List Char) (ns : List (List Char)) :
    ([',', ' '].intercalate (ns ++ [n])).length =
      ([',', ' '].intercalate ns).length + n.length + (if ns = [] then 0 else 2) := by
  rcases ns with _ | ⟨a, as⟩
  · simp [List.intercalate]
  · rw [intercalate_append_single _ _ (List.cons_ne_nil _ _)]
    simp only [List.length_append, List.cons_ne_nil, if_false, List.length_cons, List.length_nil]
    omega

theorem parseFeatures_intercalate {N : List (List Char)} (hN : N ≠ [])
    (hc : ∀ n ∈ N, ',' ∉ n ∧ '\n' ∉ n ∧ ' ' ∉ n) :
    parseFeatures ([',', ' '].intercalate N ++ ['\n']) = N := by
  obtain ⟨a, as, rfl⟩ := List.exists_cons_of_ne_nil hN
  have hsplit : [',', ' '].intercalate (a :: as) = [','].intercalate (a :: as.map (' ' :: ·)) := by
    simp [intercalate_cons, List.flatMap_map]
  have hline : ∀ x ∈ [',', ' '].intercalate (a :: as), (x != '\n') = true := by
    intro x hx
    rw [bne_iff_ne]
    rintro rfl
    simp only [intercalate_cons, List.mem_append, List.mem_flatMap] at hx
    rcases hx with hx | ⟨m, hm, hx | hx⟩
    · exact (hc a (by simp)).2.1 hx
    · exact absurd hx (by decide)
    · exact (hc m (by simp [hm])).2.1 hx
  have hdrop : ∀ n ∈ a :: as, n.dropWhile (· == ' ') = n := by
    intro n hn
    cases n with
    | nil => rfl
    | cons x xs =>
      have hx : x ≠ ' ' := fun h => (hc _ hn).2.2 (by rw [← h]; exact List.mem_cons_self x xs)
      simp [List.dropWhile_cons, hx]
  rw [parseFeatures, List.takeWhile_append_of_pos hline, hsplit]
  simp only [List.takeWhile_cons, List.takeWhile_nil, bne_self_eq_false, Bool.false_eq_true,
    if_false, List.append_nil]
  rw [List.splitOn_intercalate _ _ ?_ (List.cons_ne_nil _ _)]
  · simp only [List.map_cons, List.map_map]
    rw [hdrop a (List.mem_cons_self _ _)]
    congr 1
    refine (List.map_congr_left fun m hm => ?_).trans (List.map_id _)
    simp [List.dropWhile_cons, hdrop m (by simp [hm])]
  · simp only [List.mem_cons, List.mem_map]
    rintro l (rfl | ⟨m, hm, rfl⟩)
    · exact (hc l (by simp)).1
    · simpa using (hc m (by simp [hm])).1

/-! ## The line `features_show` prints -/

section
variable (P : Nat)

theorem featuresAppend_eq {ns : List (List Char)} (hns : ∀ n ∈ ns, n ≠ []) (name : String)
    (hfit : ([',', ' '].intercalate ns).length + name.toList.length + 2 < P) :
    featuresAppend P ([',', ' '].intercalate ns) name =
      [',', ' '].intercalate (ns ++ [name.toList]) := by
  rcases ns with _ | ⟨a, as⟩
  · simp only [List.intercalate, List.intersperse_nil, List.flatten_nil, List.length_nil] at hfit
    have hle : name.data.length ≤ P - 1 := by
      have : name.toList.length = name.data.length := rfl
      omega
    simpa [featuresAppend, scnprintf, List.intercalate] using hle
  · have hlen : ([',', ' '].intercalate (a :: as)).length ≠ 0 := by
      simp [intercalate_cons, hns a (List.mem_cons_self a as)]
    have hle : ([',', ' '] ++ name.toList).length ≤
        P - ([',', ' '].intercalate (a :: as)).length - 1 := by
      simp only [List.length_append, List.length_cons, List.length_nil]
      omega
    simp only [featuresAppend, hlen, if_false, scnprintf]
    rw [List.take_of_length_le hle, intercalate_append_single _ _ (List.cons_ne_nil _ _),
      List.append_assoc]

/-- **The chain of calls.**  From each call on, while the page has room for every name left and
for `", pin_file\n"`, the calls print the names of the features set, joined by `", "`. -/
theorem featuresShow_fold (has : Feature → Bool) : ∀ (E : List (Feature × String))
    (ns : List (List Char)), (∀ n ∈ ns, n ≠ []) → (∀ e ∈ E, e.2.toList ≠ []) →
    ([',', ' '].intercalate ns).length + (E.flatMap fun e => ',' :: ' ' :: e.2.toList).length + 12 ≤
      P + (if ns = [] then 2 else 0) →
    ∃ ns', E.foldl (fun buf e => if has e.1 then featuresAppend P buf e.2 else buf)
        ([',', ' '].intercalate ns) = [',', ' '].intercalate ns' ∧
      ns' = ns ++ (E.filter fun e => has e.1).map (·.2.toList) ∧
      ([',', ' '].intercalate ns').length + 12 ≤ P + (if ns' = [] then 2 else 0)
  | [], ns, _, _, hfit => ⟨ns, rfl, by simp, by simpa using hfit⟩
  | e :: E, ns, hns, hE, hfit => by
    have hE' : ∀ e ∈ E, e.2.toList ≠ [] := fun e he => hE e (List.mem_cons_of_mem _ he)
    simp only [List.flatMap_cons, List.length_append, List.length_cons] at hfit
    by_cases he : has e.1
    · have hns' : ∀ n ∈ ns ++ [e.2.toList], n ≠ [] := by
        simpa [or_imp, forall_and] using ⟨hns, hE e (List.mem_cons_self _ _)⟩
      have hlen := length_intercalate_snoc e.2.toList ns
      obtain ⟨ns', h₁, h₂, h₃⟩ := featuresShow_fold has E (ns ++ [e.2.toList]) hns' hE'
        (by
          rw [if_neg (by simp)]
          by_cases hn : ns = []
          · subst hn; simp [List.intercalate] at hfit hlen ⊢; omega
          · simp only [hn, if_false] at hfit hlen; omega)
      refine ⟨ns', ?_, by simp [h₂, he], h₃⟩
      rw [List.foldl_cons, if_pos he, featuresAppend_eq P hns _ (by split at hfit <;> omega), h₁]
    · obtain ⟨ns', h₁, h₂, h₃⟩ := featuresShow_fold has E ns hns hE' (by omega)
      exact ⟨ns', by rw [List.foldl_cons, if_neg he, h₁], by simp [h₂, he], h₃⟩

end

theorem listedFeatures_names (has : Feature → Bool) :
    ∀ n ∈ (listedFeatures has).map String.toList, n ≠ [] ∧ ',' ∉ n ∧ '\n' ∉ n ∧ ' ' ∉ n := by
  have hnames : ∀ e ∈ featuresShowNames,
      e.2.toList ≠ [] ∧ ',' ∉ e.2.toList ∧ '\n' ∉ e.2.toList ∧ ' ' ∉ e.2.toList := by
    decide
  simp only [listedFeatures, List.map_append, List.map_map, List.mem_append, List.mem_map,
    List.mem_filter, List.map_cons, List.map_nil, List.mem_singleton]
  rintro n (⟨e, ⟨he, -⟩, rfl⟩ | rfl)
  · exact hnames e he
  · decide

theorem featuresShow_text (P : Nat) (hP : 185 ≤ P) (has : Feature → Bool) :
    featuresShow P has = [',', ' '].intercalate ((listedFeatures has).map String.toList) ++ ['\n'] := by
  have hcost : (featuresShowNames.flatMap fun e => ',' :: ' ' :: e.2.toList).length = 175 := rfl
  obtain ⟨ns, hfold, hns_eq, hlen⟩ := featuresShow_fold P has featuresShowNames [] (by simp)
    (by decide) (by rw [hcost]; simp only [List.intercalate, List.intersperse_nil,
      List.flatten_nil, List.length_nil, if_true]; omega)
  have hlisted : (listedFeatures has).map String.toList = ns ++ ["pin_file".toList] := by
    simp [hns_eq, listedFeatures]
  have hns : ∀ n ∈ ns, n ≠ [] := fun n hn =>
    (listedFeatures_names has n (hlisted ▸ List.mem_append_left _ hn)).1
  -- the page after the names leaves room for `", pin_file\n"` and the terminating zero
  have hroom : ([',', ' '].intercalate ns).length + 12 ≤ P := by
    by_cases hn : ns = []
    · subst hn; simp [List.intercalate]; omega
    · rw [if_neg hn] at hlen; omega
  have hpin : "pin_file".toList.length = 8 := rfl
  have hlen' := length_intercalate_snoc "pin_file".toList ns
  have hnl : scnprintf (P - ([',', ' '].intercalate (ns ++ ["pin_file".toList])).length) ['\n'] =
      ['\n'] := by
    rw [scnprintf, List.take_of_length_le (by simp only [List.length_singleton]; split at hlen' <;> omega)]
  have hfold' : featuresShowNames.foldl
      (fun buf e => if has e.1 then featuresAppend P buf e.2 else buf) [] =
      [',', ' '].intercalate ns := hfold
  simp only [featuresShow]
  rw [hfold', featuresAppend_eq P hns "pin_file" (by omega), hnl, hlisted]

theorem featuresShow_parse (P : Nat) (hP : 185 ≤ P) (has : Feature → Bool) :
    parseFeatures (featuresShow P has) = (listedFeatures has).map String.toList := by
  rw [featuresShow_text P hP has]
  exact parseFeatures_intercalate (by simp [listedFeatures])
    fun n hn => (listedFeatures_names has n hn).2

/-- **`features_show` prints the line it should, and the line reads back.**  For every set of
on-disk features and every page of at least 185 bytes, nothing is cut: the page holds the names
of the features set, in the order of the code, then `pin_file`, joined by `", "`, and a newline;
a reader who cuts the line at its commas gets exactly those names back. -/
theorem featuresShow_roundTrip (P : Nat) (hP : 185 ≤ P) (has : Feature → Bool) :
    featuresShow P has = [',', ' '].intercalate ((listedFeatures has).map String.toList) ++ ['\n'] ∧
      parseFeatures (featuresShow P has) = (listedFeatures has).map String.toList :=
  ⟨featuresShow_text P hP has, featuresShow_parse P hP has⟩

theorem featuresShow_roundTrip_page :
    185 ≤ 4096 ∧
      featuresShow 4096 (fun f => f != .compression) = [',', ' '].intercalate
        ((listedFeatures fun f => f != .compression).map String.toList) ++ ['\n'] ∧
      parseFeatures (featuresShow 4096 fun f => f != .compression) =
        (listedFeatures fun f => f != .compression).map String.toList :=
  ⟨by decide, featuresShow_roundTrip 4096 (by decide) _⟩

end F3fs
