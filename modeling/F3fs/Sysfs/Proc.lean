import F3fs.Sysfs.Page
import Mathlib.Data.Nat.Digits

/-!
# The files under the instance's proc directory

`f3fs_register_sysfs` creates `segment_info`, `segment_bits` and `victim_bits` (lines 1305-1315),
printed by the `seq_show` functions of lines 1172-1243 with the conversions `%-10d`, `%d`, `%-3u`
and `%.2x`.  A `seq_file` grows its buffer until the text fits, so nothing is cut.

* `decimal`, `padRight`, `hex2`   the conversions; `digitsValue` and `words` what a reader of the
                                  files takes them apart with;
* `digitsValue_decimal`, `digitsValue_hex2`   the digits read back give the value printed;
* `tenPerLine_rows`   the loop shared by `segment_info` and `victim_bits` prints ten entries a
                      line, each line opened by the index of its first entry in ten columns;
* `segmentInfo_readBack`, `victimBits_readBack`, `segmentBits_readBack`   a reader that cuts the
                      files at their newlines, `|` and blanks gets back what the code printed, line
                      by line: on volumes of at most `10 ^ 9` segments or sections, where an index
                      fills at most nine of the ten columns of `%-10d` and a blank follows it.
-/

namespace F3fs

/-! ## The conversions -/

/-- `%d` or `%u` of a value that is not negative: its decimal digits. -/
def decimal (n : Nat) : List Char := Nat.toDigits 10 n

/-- `%-<width>`: the text, then blanks up to `width` characters. -/
def padRight (width : Nat) (s : List Char) : List Char :=
  s ++ List.replicate (width - s.length) ' '

/-- `%.2x` of a byte: its lowercase hexadecimal digits, with zeros in front up to two. -/
def hex2 (x : UInt8) : List Char :=
  List.replicate (2 - (Nat.toDigits 16 x.toNat).length) '0' ++ Nat.toDigits 16 x.toNat

/-- The value of a digit `0`-`9` or `a`-`f`. -/
def charValue (c : Char) : Nat :=
  if c.toNat ≤ '9'.toNat then c.toNat - '0'.toNat else c.toNat - 'a'.toNat + 10

/-- The value of the digits `s` in base `b`, read from the left. -/
def digitsValue (b : Nat) (s : List Char) : Nat :=
  s.foldl (fun acc c => b * acc + charValue c) 0

/-- The words of a line: the pieces between its blanks that are not empty. -/
def words (s : List Char) : List (List Char) :=
  (s.splitOn ' ').filter fun w => !w.isEmpty

/-! ## Digits read back -/

theorem charValue_digitChar : ∀ d < 16, charValue (Nat.digitChar d) = d := by decide

theorem digitChar_plain : ∀ d < 16, Nat.digitChar d ∉ [' ', '|', '\n'] := by decide

theorem foldl_digitsValue (b : Nat) (l : List Char) : ∀ acc,
    l.foldl (fun acc c => b * acc + charValue c) acc = acc * b ^ l.length + digitsValue b l := by
  induction l with
  | nil => simp [digitsValue]
  | cons c l ih =>
    intro acc
    rw [digitsValue, List.foldl_cons, List.foldl_cons, ih, ih, List.length_cons]
    ring

theorem digitsValue_cons (b : Nat) (c : Char) (l : List Char) :
    digitsValue b (c :: l) = charValue c * b ^ l.length + digitsValue b l := by
  rw [digitsValue, List.foldl_cons, foldl_digitsValue, Nat.mul_zero, Nat.zero_add]

theorem digitsValue_toDigitsCore {b : Nat} (hb : 2 ≤ b) (hb' : b ≤ 16) :
    ∀ fuel n ds, n < fuel →
      digitsValue b (Nat.toDigitsCore b fuel n ds) = n * b ^ ds.length + digitsValue b ds
  | 0, _, _, h => absurd h (Nat.not_lt_zero _)
  | fuel + 1, n, ds, h => by
    have hd : n % b < 16 := Nat.lt_of_lt_of_le (Nat.mod_lt n (by omega)) hb'
    simp only [Nat.toDigitsCore]
    split
    case isTrue h0 =>
      rw [digitsValue_cons, charValue_digitChar _ hd,
        Nat.mod_eq_of_lt ((Nat.div_eq_zero_iff (by omega)).mp h0)]
    case isFalse h0 =>
      have hn : n / b < fuel := by
        have hn0 : n ≠ 0 := by rintro rfl; exact h0 (Nat.zero_div b)
        have := Nat.div_lt_self (Nat.pos_of_ne_zero hn0) (by omega : 1 < b)
        omega
      rw [digitsValue_toDigitsCore hb hb' fuel _ _ hn, digitsValue_cons, charValue_digitChar _ hd,
        List.length_cons]
      calc n / b * b ^ (ds.length + 1) + (n % b * b ^ ds.length + digitsValue b ds)
          = (b * (n / b) + n % b) * b ^ ds.length + digitsValue b ds := by ring
        _ = n * b ^ ds.length + digitsValue b ds := by rw [Nat.div_add_mod]

theorem digitsValue_toDigits {b : Nat} (hb : 2 ≤ b) (hb' : b ≤ 16) (n : Nat) :
    digitsValue b (Nat.toDigits b n) = n := by
  simpa [digitsValue] using digitsValue_toDigitsCore hb hb' (n + 1) n [] (Nat.lt_succ_self n)

theorem digitsValue_decimal (n : Nat) : digitsValue 10 (decimal n) = n :=
  digitsValue_toDigits (by norm_num) (by norm_num) n

theorem digitsValue_zeros (b k : Nat) (s : List Char) :
    digitsValue b (List.replicate k '0' ++ s) = digitsValue b s := by
  induction k with
  | zero => rfl
  | succ k ih =>
    rw [List.replicate_succ, List.cons_append, digitsValue_cons, ih,
      show charValue '0' = 0 from rfl, Nat.zero_mul, Nat.zero_add]

theorem digitsValue_hex2 (x : UInt8) : digitsValue 16 (hex2 x) = x.toNat := by
  rw [hex2, digitsValue_zeros, digitsValue_toDigits (by norm_num) le_rfl]

/-! ## What the conversions print -/

theorem toDigitsCore_plain {b : Nat} (hb : 0 < b) (hb' : b ≤ 16) {c : Char} :
    ∀ fuel n ds, c ∈ Nat.toDigitsCore b fuel n ds → c ∉ ds → c ∉ [' ', '|', '\n']
  | 0, _, _, h, hds => absurd h hds
  | fuel + 1, n, ds, h, hds => by
    have hd := digitChar_plain (n % b) (Nat.lt_of_lt_of_le (Nat.mod_lt n hb) hb')
    by_cases hc : c = Nat.digitChar (n % b)
    · exact hc ▸ hd
    simp only [Nat.toDigitsCore] at h
    split at h
    · exact absurd ((List.mem_cons.mp h).resolve_left hc) hds
    · exact toDigitsCore_plain hb hb' fuel _ _ h (by simp [hc, hds])

theorem toDigits_ne_nil (b n : Nat) : Nat.toDigits b n ≠ [] := by
  simp only [Nat.toDigits, Nat.toDigitsCore]
  split
  · exact List.cons_ne_nil _ _
  · rw [← List.length_pos, Nat.toDigitsCore_lens_eq]
    omega

@[simp] theorem not_mem_decimal {n : Nat} {c : Char} (hc : c ∈ [' ', '|', '\n']) :
    c ∉ decimal n :=
  fun h => toDigitsCore_plain (by norm_num) (by norm_num) _ _ _ h (List.not_mem_nil c) hc

@[simp] theorem not_mem_hex2 {x : UInt8} {c : Char} (hc : c ∈ [' ', '|', '\n']) :
    c ∉ hex2 x := by
  rw [hex2, List.mem_append, not_or]
  refine ⟨fun h => ?_, fun h => toDigitsCore_plain (by norm_num) le_rfl _ _ _ h
    (List.not_mem_nil c) hc⟩
  rw [List.eq_of_mem_replicate h] at hc
  exact absurd hc (by decide)

theorem not_mem_padRight {width : Nat} {s : List Char} {c : Char} (hs : c ∉ s) (hc : c ≠ ' ') :
    c ∉ padRight width s := by
  simp [padRight, hs, List.mem_replicate, hc]

theorem decimal_ne_nil (n : Nat) : decimal n ≠ [] := toDigits_ne_nil 10 n

theorem hex2_ne_nil (x : UInt8) : hex2 x ≠ [] := by
  simp [hex2, toDigits_ne_nil]

theorem decimal_length_lt {n : Nat} (h : n < 10 ^ 9) : (decimal n).length < 10 :=
  Nat.lt_succ_of_le (Nat.repr_length n 9 (by norm_num) h)

/-! ## Cutting a text into lines and words -/

theorem splitOnP_append_cons {α : Type} (p : α → Bool) (c : α) (hc : p c = true)
    (x y : List α) :
    (x ++ c :: y).splitOnP p = x.splitOnP p ++ y.splitOnP p := by
  induction x with
  | nil => simp [hc]
  | cons a x ih =>
    rw [List.cons_append, List.splitOnP_cons, List.splitOnP_cons, ih]
    split
    · rfl
    · obtain ⟨h, t, e⟩ := List.exists_cons_of_ne_nil (List.splitOnP_ne_nil p x)
      rw [e]
      rfl

theorem splitOn_single {s : List Char} {c : Char} (hs : c ∉ s) : s.splitOn c = [s] :=
  List.splitOnP_eq_single _ _ fun _ hx h => hs (eq_of_beq h ▸ hx)

theorem splitOn_append_cons {s : List Char} {c : Char} (hs : c ∉ s) (rest : List Char) :
    (s ++ c :: rest).splitOn c = s :: rest.splitOn c :=
  List.splitOnP_first (· == c) s (fun _ hx h => hs (eq_of_beq h ▸ hx)) c (beq_self_eq_true c)
    rest

theorem splitOn_lines {ι : Type} (B : ι → List Char) (rest : List Char) : ∀ xs : List ι,
    (∀ x ∈ xs, '\n' ∉ B x) →
    (xs.flatMap (fun x => B x ++ ['\n']) ++ rest).splitOn '\n' = xs.map B ++ rest.splitOn '\n'
  | [], _ => rfl
  | x :: xs, hB => by
    rw [List.flatMap_cons, List.append_assoc, List.append_assoc, List.singleton_append,
      splitOn_append_cons (hB x (List.mem_cons_self _ _)),
      splitOn_lines B rest xs fun y hy => hB y (List.mem_cons_of_mem _ hy)]
    rfl

@[simp] theorem words_nil : words [] = [] := rfl

theorem words_append_blank (x y : List Char) : words (x ++ ' ' :: y) = words x ++ words y := by
  simp only [words, List.splitOn, splitOnP_append_cons (· == ' ') ' ' rfl, List.filter_append]

theorem words_single {w : List Char} (hw : ' ' ∉ w) (hne : w ≠ []) : words w = [w] := by
  simp [words, splitOn_single hw, hne]

theorem words_blanks (k : Nat) (s : List Char) : words (List.replicate k ' ' ++ s) = words s := by
  induction k with
  | zero => rfl
  | succ k ih =>
    simpa [List.replicate_succ, ih] using words_append_blank [] (List.replicate k ' ' ++ s)

theorem words_append_replicate {w : List Char} (hw : ' ' ∉ w) (hne : w ≠ []) (k : Nat) :
    words (w ++ List.replicate k ' ') = [w] := by
  cases k with
  | zero => simpa using words_single hw hne
  | succ k => simpa [List.replicate_succ, words_append_blank, words_single hw hne] using
      words_blanks k []

theorem words_padRight_append {w : List Char} (hw : ' ' ∉ w) (hne : w ≠ []) {width : Nat}
    (hlen : w.length < width) (s : List Char) : words (padRight width w ++ s) = w :: words s := by
  obtain ⟨k, hk⟩ : ∃ k, width - w.length = k + 1 := ⟨width - w.length - 1, by omega⟩
  rw [padRight, hk, List.replicate_succ, List.append_assoc, List.cons_append, words_append_blank,
    words_single hw hne, words_blanks]
  rfl

theorem words_flatMap_blank (L : List (List Char)) : ∀ a : List Char,
    words (a ++ L.flatMap (' ' :: ·)) = words a ++ L.flatMap words := by
  induction L with
  | nil => simp
  | cons b L ih =>
    intro a
    rw [List.flatMap_cons, List.cons_append, words_append_blank, ih, List.flatMap_cons]

theorem words_blank_each {ι : Type} (f : ι → List Char) (hf : ∀ x, ' ' ∉ f x)
    (hne : ∀ x, f x ≠ []) (xs : List ι) :
    words (xs.flatMap fun x => ' ' :: f x) = xs.map f := by
  simpa [List.flatMap_map, words_single (hf _) (hne _), ← List.map_eq_flatMap] using
    words_flatMap_blank (xs.map f) []

theorem words_intercalate (L : List (List Char)) :
    words ([' '].intercalate L) = L.flatMap words := by
  cases L with
  | nil => rfl
  | cons a L => simpa [intercalate_cons] using words_flatMap_blank L a

theorem mem_intercalate_blank {c : Char} {L : List (List Char)} (h : c ∈ [' '].intercalate L) :
    c = ' ' ∨ ∃ l ∈ L, c ∈ l := by
  cases L with
  | nil => simp [List.intercalate] at h
  | cons a L =>
    simp only [intercalate_cons, List.mem_append, List.mem_flatMap, List.singleton_append,
      List.mem_cons] at h
    rcases h with h | ⟨l, hl, h | h⟩
    · exact .inr ⟨a, List.mem_cons_self _ _, h⟩
    · exact .inl h
    · exact .inr ⟨l, List.mem_cons_of_mem _ hl, h⟩

/-! ## Ten entries a line -/

/-- One pass of the loop of `segment_info_seq_show` and `victim_bits_seq_show` over `n` entries:
every tenth entry opens a line with its index in ten columns; a newline follows the tenth entry of
a line and the last one, a blank the others. -/
def tenPerLineItem (n : Nat) (entry : Nat → List Char) (i : Nat) : List Char :=
  (if i % 10 = 0 then padRight 10 (decimal i) else []) ++ entry i ++
    [if i % 10 = 9 ∨ i = n - 1 then '\n' else ' ']

/-- The whole loop, `i` from `0` to `n - 1`. -/
def tenPerLine (n : Nat) (entry : Nat → List Char) : List Char :=
  (List.range n).flatMap (tenPerLineItem n entry)

/-- Line `k`: the index of its first entry in ten columns, then its entries, at most ten, joined
by blanks. -/
def tenPerLineRow (n : Nat) (entry : Nat → List Char) (k : Nat) : List Char :=
  padRight 10 (decimal (10 * k)) ++
    [' '].intercalate ((List.range' (10 * k) (min 10 (n - 10 * k))).map entry)

section
variable (n : Nat) (entry : Nat → List Char)

theorem flatMap_entries_newline : ∀ (m a e : Nat), e = a + m + 1 →
    (List.range' a (m + 1)).flatMap (fun i => entry i ++ [if i + 1 = e then '\n' else ' ']) =
      entry a ++ (List.range' (a + 1) m).flatMap (' ' :: entry ·) ++ ['\n']
  | 0, a, e, he => by simp [he]
  | m + 1, a, e, he => by
    rw [List.range'_succ, List.flatMap_cons, flatMap_entries_newline m (a + 1) e (by omega),
      if_neg (by omega), List.range'_succ, List.flatMap_cons]
    simp

theorem tenPerLine_line {k m : Nat} (hm : m = min 10 (n - 10 * k)) (hpos : 0 < m) :
    (List.range' (10 * k) m).flatMap (tenPerLineItem n entry) =
      tenPerLineRow n entry k ++ ['\n'] := by
  obtain ⟨m, rfl⟩ : ∃ m', m = m' + 1 := ⟨m - 1, by omega⟩
  have hsep : ∀ i, 10 * k ≤ i → i < 10 * k + (m + 1) →
      (if i % 10 = 9 ∨ i = n - 1 then '\n' else ' ') =
        if i + 1 = 10 * k + m + 1 then '\n' else ' ' := by
    intro i hlo hhi
    simp only [show (i % 10 = 9 ∨ i = n - 1) ↔ i + 1 = 10 * k + m + 1 by omega]
  have hrest : ∀ i ∈ List.range' (10 * k + 1) m, tenPerLineItem n entry i =
      entry i ++ [if i + 1 = 10 * k + m + 1 then '\n' else ' '] := by
    intro i hi
    rw [List.mem_range'_1] at hi
    rw [tenPerLineItem, if_neg (by omega), List.nil_append, hsep i (by omega) (by omega)]
  have key := flatMap_entries_newline entry m (10 * k) _ rfl
  rw [List.range'_succ, List.flatMap_cons] at key
  rw [List.range'_succ, List.flatMap_cons, List.flatMap_congr hrest, tenPerLineItem,
    if_pos (by omega), hsep _ le_rfl (by omega), List.append_assoc, List.append_assoc,
    ← List.append_assoc (entry _), key, tenPerLineRow, ← hm, List.range'_succ, List.map_cons,
    intercalate_cons]
  simp [List.flatMap_map]

theorem tenPerLine_from : ∀ (c k : Nat), n - 10 * k ≤ 10 * c →
    (List.range' (10 * k) (n - 10 * k)).flatMap (tenPerLineItem n entry) =
      (List.range' k ((n - 10 * k + 9) / 10)).flatMap fun j => tenPerLineRow n entry j ++ ['\n']
  | 0, k, h => by simp [show n - 10 * k = 0 by omega]
  | c + 1, k, h => by
    by_cases hr : n - 10 * k ≤ 10
    · rcases Nat.eq_zero_or_pos (n - 10 * k) with h0 | h0
      · simp [h0]
      · rw [show (n - 10 * k + 9) / 10 = 0 + 1 by omega, List.range'_succ, List.flatMap_cons,
          List.range'_zero, List.flatMap_nil, List.append_nil]
        exact tenPerLine_line n entry (by omega) h0
    · have e : (n - 10 * k + 9) / 10 = (n - 10 * (k + 1) + 9) / 10 + 1 := by omega
      rw [e, List.range'_succ, List.flatMap_cons, show n - 10 * k = n - 10 * (k + 1) + 10 by omega,
        ← List.range'_append, List.flatMap_append, tenPerLine_line n entry (by omega) (by omega),
        show 10 * k + 1 * 10 = 10 * (k + 1) by omega, tenPerLine_from c (k + 1) (by omega)]

/-- **Ten a line.**  The loop prints line after line, each with the index of its first entry in
ten columns and its entries, at most ten, joined by blanks. -/
theorem tenPerLine_rows :
    tenPerLine n entry =
      (List.range ((n + 9) / 10)).flatMap fun k => tenPerLineRow n entry k ++ ['\n'] := by
  simpa [tenPerLine, List.range_eq_range'] using tenPerLine_from n entry n 0 (by omega)

end

/-- A reader of `segment_info` or `victim_bits`: past the `h` lines of the header, each line's
first word is its label and the others are its entries. -/
def readLines (h : Nat) (text : List Char) : List (List Char × List (List Char)) :=
  (((text.splitOn '\n').drop h).dropLast).map fun line => ((words line).headD [], (words line).tail)

theorem readLines_tenPerLine (hdr : List (List Char)) (hhdr : ∀ l ∈ hdr, '\n' ∉ l) (h : Nat)
    (hh : hdr.length = h) {n : Nat}
    (hn : n ≤ 10 ^ 9) (entry word : Nat → List Char) (hword : ∀ i, words (entry i) = [word i])
    (hnl : ∀ i, '\n' ∉ entry i) :
    readLines h (hdr.flatMap (· ++ ['\n']) ++ tenPerLine n entry) =
      (List.range ((n + 9) / 10)).map fun k =>
        (decimal (10 * k), (List.range' (10 * k) (min 10 (n - 10 * k))).map word) := by
  have hrow : ∀ k, '\n' ∉ tenPerLineRow n entry k := by
    intro k h
    rcases List.mem_append.mp h with h | h
    · exact not_mem_padRight (not_mem_decimal (by simp)) (by decide) h
    · rcases mem_intercalate_blank h with h | ⟨l, hl, h⟩
      · exact absurd h (by decide)
      · obtain ⟨i, -, rfl⟩ := List.mem_map.mp hl
        exact hnl i h
  rw [readLines, tenPerLine_rows, splitOn_lines (fun l => l) _ hdr hhdr, List.map_id',
    List.drop_left' hh, ← List.append_nil (List.flatMap _ _), splitOn_lines _ [] _
      (fun k _ => hrow k), List.splitOn_nil, List.dropLast_concat, List.map_map]
  refine List.map_congr_left fun k hk => ?_
  have hk : 10 * k < 10 ^ 9 := by rw [List.mem_range] at hk; omega
  rw [Function.comp_apply, tenPerLineRow, words_padRight_append (not_mem_decimal (by simp))
    (decimal_ne_nil _) (decimal_length_lt hk), words_intercalate]
  simp [List.flatMap_map, hword, ← List.map_eq_flatMap]

/-! ## The three files -/

/-- What the proc files print of a segment's `seg_entry`: its type, its count of valid blocks and
its bitmap of valid blocks, `SIT_VBLOCK_MAP_SIZE` bytes. -/
structure SegEntry where
  type : Nat
  validBlocks : Nat
  curValidMap : Nat → UInt8

/-- `segment_info_seq_show` (lines 1172-1197): the header, then `type|valid_blocks` of each of the
`total_segs` main segments, ten a line. -/
def segmentInfoSeqShow (totalSegs : Nat) (getSegEntry : Nat → SegEntry) : List Char :=
  "format: segment_type|valid_blocks\nsegment_type(0:HD, 1:WD, 2:CD, 3:HN, 4:WN, 5:CN)\n".toList ++
    tenPerLine totalSegs fun i =>
      decimal (getSegEntry i).type ++ '|' :: padRight 3 (decimal (getSegEntry i).validBlocks)

/-- `victim_bits_seq_show` (lines 1223-1243): the header, then for each of the `MAIN_SECS`
sections `1` if it is set in `victim_secmap` and `0` if not, ten a line. -/
def victimBitsSeqShow (mainSecs : Nat) (victimSecmap : Nat → Bool) : List Char :=
  "format: victim_secmap bitmaps\n".toList ++
    tenPerLine mainSecs fun i => decimal (if victimSecmap i then 1 else 0)

/-- `segment_bits_seq_show` (lines 1199-1221): the header, then a line for each main segment: its
index in ten columns, `type|valid_blocks|`, and each byte of its bitmap after a blank. -/
def segmentBitsSeqShow (sitVblockMapSize totalSegs : Nat) (getSegEntry : Nat → SegEntry) :
    List Char :=
  "format: segment_type|valid_blocks|bitmaps\nsegment_type(0:HD, 1:WD, 2:CD, 3:HN, 4:WN, 5:CN)\n".toList ++
    (List.range totalSegs).flatMap fun i =>
      padRight 10 (decimal i) ++ decimal (getSegEntry i).type ++ '|' ::
        padRight 3 (decimal (getSegEntry i).validBlocks) ++ '|' ::
          (List.range sitVblockMapSize).flatMap (fun j => ' ' :: hex2 ((getSegEntry i).curValidMap j)) ++
        ['\n']

/-- Reading `segment_info`: each line's label, and the type and valid blocks of each
`type|valid_blocks` after it. -/
def readSegmentInfo (text : List Char) : List (Nat × List (Nat × Nat)) :=
  (readLines 2 text).map fun l =>
    (digitsValue 10 l.1, l.2.map fun e =>
      match e.splitOn '|' with
      | [t, v] => (digitsValue 10 t, digitsValue 10 v)
      | _ => (0, 0))

/-- Reading `victim_bits`: each line's label and the bits after it. -/
def readVictimBits (text : List Char) : List (Nat × List Nat) :=
  (readLines 1 text).map fun l => (digitsValue 10 l.1, l.2.map (digitsValue 10))

/-- Reading a line of `segment_bits`: cut at its two `|`, the words before the first are the index
and the type, the word before the second the valid blocks, the words after it the bytes of the
bitmap in hexadecimal. -/
def readSegmentBitsLine (line : List Char) : Nat × Nat × Nat × List Nat :=
  match line.splitOn '|' with
  | [a, b, c] =>
    (digitsValue 10 ((words a).headD []), digitsValue 10 ((words a).getD 1 []),
      digitsValue 10 ((words b).headD []), (words c).map (digitsValue 16))
  | _ => (0, 0, 0, [])

/-- Reading `segment_bits`: each line past the header. -/
def readSegmentBits (text : List Char) : List (Nat × Nat × Nat × List Nat) :=
  (((text.splitOn '\n').drop 2).dropLast).map readSegmentBitsLine

/-- **`segment_info` read back.**  On a volume of at most `10 ^ 9` main segments, line `k` of
`segment_info` reads as the index `10 * k` and the type and valid blocks of segments `10 * k`
onwards, ten of them or those left. -/
theorem segmentInfo_readBack (totalSegs : Nat) (hn : totalSegs ≤ 10 ^ 9)
    (getSegEntry : Nat → SegEntry) :
    readSegmentInfo (segmentInfoSeqShow totalSegs getSegEntry) =
      (List.range ((totalSegs + 9) / 10)).map fun k =>
        (10 * k, (List.range' (10 * k) (min 10 (totalSegs - 10 * k))).map fun i =>
          ((getSegEntry i).type, (getSegEntry i).validBlocks)) := by
  have hhdr :
      "format: segment_type|valid_blocks\nsegment_type(0:HD, 1:WD, 2:CD, 3:HN, 4:WN, 5:CN)\n".toList =
      ["format: segment_type|valid_blocks".toList,
        "segment_type(0:HD, 1:WD, 2:CD, 3:HN, 4:WN, 5:CN)".toList].flatMap (· ++ ['\n']) := rfl
  have hword : ∀ i, words (decimal (getSegEntry i).type ++ '|' ::
      padRight 3 (decimal (getSegEntry i).validBlocks)) =
        [decimal (getSegEntry i).type ++ '|' :: decimal (getSegEntry i).validBlocks] := by
    intro i
    rw [padRight, ← List.cons_append, ← List.append_assoc]
    exact words_append_replicate (by simp) (by simp) _
  rw [readSegmentInfo, segmentInfoSeqShow, hhdr,
    readLines_tenPerLine _ (by decide) 2 (by rfl) hn _ _ hword
    (fun i => by simp [not_mem_padRight]), List.map_map]
  refine List.map_congr_left fun k _ => ?_
  simp [Function.comp_def, splitOn_append_cons, splitOn_single, digitsValue_decimal]

theorem segmentInfo_readBack_twelve :
    readSegmentInfo (segmentInfoSeqShow 12 fun i => ⟨i % 6, 50 * i, fun _ => 0⟩) =
      [(0, [(0, 0), (1, 50), (2, 100), (3, 150), (4, 200), (5, 250), (0, 300), (1, 350),
        (2, 400), (3, 450)]), (10, [(4, 500), (5, 550)])] :=
  (segmentInfo_readBack 12 (by norm_num) _).trans rfl

/-- **`victim_bits` read back.**  On a volume of at most `10 ^ 9` sections, line `k` of
`victim_bits` reads as the index `10 * k` and, for sections `10 * k` onwards, ten of them or those
left, `1` for a section set in `victim_secmap` and `0` for the others. -/
theorem victimBits_readBack (mainSecs : Nat) (hn : mainSecs ≤ 10 ^ 9) (victimSecmap : Nat → Bool) :
    readVictimBits (victimBitsSeqShow mainSecs victimSecmap) =
      (List.range ((mainSecs + 9) / 10)).map fun k =>
        (10 * k, (List.range' (10 * k) (min 10 (mainSecs - 10 * k))).map fun i =>
          if victimSecmap i then 1 else 0) := by
  have hhdr : "format: victim_secmap bitmaps\n".toList =
      ["format: victim_secmap bitmaps".toList].flatMap (· ++ ['\n']) := rfl
  rw [readVictimBits, victimBitsSeqShow, hhdr, readLines_tenPerLine _ (by decide) 1 (by rfl) hn _ _
    (fun i => words_single (not_mem_decimal (by simp)) (decimal_ne_nil _))
    (fun i => not_mem_decimal (by simp)), List.map_map]
  simp [Function.comp_def, List.map_map, digitsValue_decimal]

theorem victimBits_readBack_twelve :
    readVictimBits (victimBitsSeqShow 12 fun i => i % 4 == 0) =
      [(0, [1, 0, 0, 0, 1, 0, 0, 0, 1, 0]), (10, [0, 0])] :=
  (victimBits_readBack 12 (by norm_num) _).trans rfl

/-- **`segment_bits` read back.**  On a volume of at most `10 ^ 9` main segments, `segment_bits`
reads, line after line, as each segment's index, type and valid blocks and the bytes of its bitmap
of valid blocks. -/
theorem segmentBits_readBack (sitVblockMapSize totalSegs : Nat) (hn : totalSegs ≤ 10 ^ 9)
    (getSegEntry : Nat → SegEntry) :
    readSegmentBits (segmentBitsSeqShow sitVblockMapSize totalSegs getSegEntry) =
      (List.range totalSegs).map fun i =>
        (i, (getSegEntry i).type, (getSegEntry i).validBlocks,
          (List.range sitVblockMapSize).map fun j => ((getSegEntry i).curValidMap j).toNat) := by
  have hhdr :
      "format: segment_type|valid_blocks|bitmaps\nsegment_type(0:HD, 1:WD, 2:CD, 3:HN, 4:WN, 5:CN)\n".toList =
      ["format: segment_type|valid_blocks|bitmaps".toList,
        "segment_type(0:HD, 1:WD, 2:CD, 3:HN, 4:WN, 5:CN)".toList].flatMap (· ++ ['\n']) := rfl
  rw [readSegmentBits, segmentBitsSeqShow, hhdr, splitOn_lines (fun l => l) _ _ (by decide),
    List.map_id', List.drop_left' (by rfl), ← List.append_nil (List.flatMap _ _),
    splitOn_lines _ [] _, List.splitOn_nil, List.dropLast_concat, List.map_map]
  · refine List.map_congr_left fun i hi => ?_
    have hi : i < 10 ^ 9 := by rw [List.mem_range] at hi; omega
    rw [Function.comp_apply, List.append_assoc, List.cons_append, readSegmentBitsLine,
      splitOn_append_cons (by simp [not_mem_padRight]),
      splitOn_append_cons (by simp [not_mem_padRight]),
      splitOn_single (by simp [List.mem_flatMap])]
    simp only
    rw [words_padRight_append (not_mem_decimal (by simp)) (decimal_ne_nil _) (decimal_length_lt hi),
      words_single (not_mem_decimal (by simp)) (decimal_ne_nil _), padRight,
      words_append_replicate (not_mem_decimal (by simp)) (decimal_ne_nil _),
      words_blank_each _ (fun _ => not_mem_hex2 (by simp)) (fun _ => hex2_ne_nil _)]
    simp [digitsValue_decimal, digitsValue_hex2]
  · exact fun i _ => by simp [not_mem_padRight, List.mem_flatMap]

theorem segmentBits_readBack_three :
    readSegmentBits (segmentBitsSeqShow 2 3 fun i => ⟨1, 7 * i, fun j => UInt8.ofNat (15 * (i + j))⟩) =
      [(0, 1, 0, [0, 15]), (1, 1, 7, [15, 30]), (2, 1, 14, [30, 45])] :=
  (segmentBits_readBack 2 3 (by norm_num) _).trans rfl

end F3fs
