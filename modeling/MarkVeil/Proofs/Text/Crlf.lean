/-
Line feeds with carriage returns before them.

`crlf` puts a carriage return before every line feed of a text, which moves each offset by as many bytes as line feeds
stand before it (`Move.crlf`). Cuts and searches for a text without line ends come to the moved places
(`dropBytes?_crlf`, `find?_crlf`, `findRun?_crlf`), and lines keep their numbers and contents. So a text without
carriage returns is carried (`carries_crlf`).
-/
import MarkVeil.Proofs.Marker.CodeSpan
import MarkVeil.Proofs.Text.Carry

namespace MarkVeil.Text

open MarkVeil.Marker

/-- a carriage return before every line feed -/
def crlf : List Char → List Char
  | [] => []
  | c :: s => if c = '\n' then '\r' :: '\n' :: crlf s else c :: crlf s

def feedsBefore : List Char → Nat → Nat
  | [], _ => 0
  | _ :: _, 0 => 0
  | c :: s, n + 1 => (if c = '\n' then 1 else 0) + feedsBefore s (n + 1 - c.utf8Size)

/-- where offsets go when every line feed gets a carriage return -/
def Move.crlf (s : List Char) : Move := ⟨fun o => o + feedsBefore s o, 0⟩

variable {s a b l t x : List Char} {c : Char} {i j n p start stop run : Nat}

/-! ## Offsets -/

@[simp] theorem crlf_nil : crlf [] = [] := rfl

theorem crlf_feed (s : List Char) : crlf ('\n' :: s) = '\r' :: '\n' :: crlf s := rfl

theorem crlf_cons (hc : c ≠ '\n') (s : List Char) : crlf (c :: s) = c :: crlf s := if_neg hc

theorem crlf_append (a b : List Char) : crlf (a ++ b) = crlf a ++ crlf b := by
  induction a with
  | nil => rfl
  | cons c a ih =>
    rw [List.cons_append, crlf, crlf, ih]
    split_ifs <;> rfl

theorem crlf_of_not_mem (h : '\n' ∉ l) : crlf l = l := by
  induction l with
  | nil => rfl
  | cons c l ih =>
    rw [crlf_cons (List.ne_of_not_mem_cons h).symm, ih (List.not_mem_of_not_mem_cons h)]

theorem count_crlf (s : List Char) : (crlf s).count '\n' = s.count '\n' := by
  induction s with
  | nil => rfl
  | cons c s ih =>
    rw [crlf]
    split_ifs with hc
    · rw [hc, List.count_cons_of_ne (by decide), List.count_cons_self, List.count_cons_self, ih]
    · rw [List.count_cons_of_ne hc, List.count_cons_of_ne hc, ih]

theorem byteLen_crlf (s : List Char) : byteLen (crlf s) = byteLen s + s.count '\n' := by
  induction s with
  | nil => rfl
  | cons c s ih =>
    have hcr : '\r'.utf8Size = 1 := rfl
    rw [crlf]
    split_ifs with hc
    · rw [hc, byteLen_cons, byteLen_cons, byteLen_cons, List.count_cons_self, ih, hcr]
      omega
    · rw [byteLen_cons, byteLen_cons, List.count_cons_of_ne hc, ih]
      omega

theorem feedsBefore_zero (s : List Char) : feedsBefore s 0 = 0 := by cases s <;> rfl

theorem feedsBefore_mono (s : List Char) : Monotone (feedsBefore s) := by
  intro i j hij
  induction s generalizing i j with
  | nil => exact le_rfl
  | cons c s ih =>
    cases i with
    | zero =>
      rw [feedsBefore_zero]
      exact Nat.zero_le _
    | succ i =>
      obtain ⟨j, rfl⟩ := Nat.exists_eq_succ_of_ne_zero (by omega : j ≠ 0)
      exact Nat.add_le_add_left (ih (by omega)) _

theorem strictMono_crlf (s : List Char) : StrictMono (Move.crlf s).offset := fun _ _ hij =>
  Nat.add_lt_add_of_lt_of_le hij (feedsBefore_mono s hij.le)

/-- lines keep their numbers -/
theorem lines_crlf (s : List Char) (i : Nat) : (Move.crlf s).lines + i = i := Nat.zero_add i

theorem offset_crlf_zero (s : List Char) : (Move.crlf s).offset 0 = 0 := by
  simp only [Move.crlf, feedsBefore_zero]

/-- **Behind a text offsets go as far as in the rest.** -/
theorem offset_crlf_append (a t : List Char) (n : Nat) :
    (Move.crlf (a ++ t)).offset (byteLen a + n) = byteLen (crlf a) + (Move.crlf t).offset n := by
  have hfeeds : feedsBefore (a ++ t) (byteLen a + n) = a.count '\n' + feedsBefore t n := by
    induction a with
    | nil => simp
    | cons c a ih =>
      obtain ⟨k, hk⟩ := Nat.exists_eq_add_of_le' c.utf8Size_pos
      rw [List.cons_append, byteLen_cons, show c.utf8Size + byteLen a + n = (k + byteLen a + n) + 1 by omega,
        feedsBefore, show k + byteLen a + n + 1 - c.utf8Size = byteLen a + n by omega, ih]
      split_ifs with hc
      · rw [hc, List.count_cons_self]
        omega
      · rw [List.count_cons_of_ne hc, Nat.zero_add]
  rw [byteLen_crlf]
  simp only [Move.crlf, hfeeds]
  omega

/-- a place goes behind what stood before it -/
theorem offset_crlf_place (a t : List Char) : (Move.crlf (a ++ t)).offset (byteLen a) = byteLen (crlf a) := by
  have h := offset_crlf_append a t 0
  rwa [Nat.add_zero, offset_crlf_zero] at h

theorem offset_crlf_feed (s : List Char) (n : Nat) :
    (Move.crlf ('\n' :: s)).offset (n + 1) = (Move.crlf s).offset n + 2 := by
  have hfeed : feedsBefore ('\n' :: s) (n + 1) = 1 + feedsBefore s n := rfl
  simp only [Move.crlf, hfeed]
  omega

theorem offset_crlf_cons (hc : c ≠ '\n') (s : List Char) (n : Nat) :
    (Move.crlf (c :: s)).offset (c.utf8Size + n) = c.utf8Size + (Move.crlf s).offset n := by
  have h := offset_crlf_append [c] s n
  rwa [crlf_cons hc, crlf_nil, byteLen_cons, byteLen_nil, Nat.add_zero] at h

/-- inside a character offsets stay -/
theorem offset_crlf_inside (hc : c ≠ '\n') (s : List Char) (hn : n ≤ c.utf8Size) :
    (Move.crlf (c :: s)).offset n = n := by
  cases n with
  | zero => exact offset_crlf_zero _
  | succ n => simp only [Move.crlf, feedsBefore, if_neg hc, Nat.sub_eq_zero_of_le hn, feedsBefore_zero, Nat.add_zero]

/-- on text without a line feed offsets stay -/
theorem offset_crlf_line (h : '\n' ∉ l) (a : List Char) (hn : n ≤ byteLen l) : (Move.crlf (l ++ a)).offset n = n := by
  induction l generalizing n with
  | nil =>
    obtain rfl : n = 0 := by simpa using hn
    exact offset_crlf_zero _
  | cons c l ih =>
    have hc := (List.ne_of_not_mem_cons h).symm
    rcases Nat.le_total n c.utf8Size with hle | hle
    · exact offset_crlf_inside hc _ hle
    · obtain ⟨k, rfl⟩ := Nat.exists_eq_add_of_le hle
      rw [byteLen_cons, Nat.add_le_add_iff_left] at hn
      rw [List.cons_append, offset_crlf_cons hc, ih (List.not_mem_of_not_mem_cons h) hn]

/-! ## Cuts -/

theorem dropBytes?_crlf (s : List Char) (n : Nat) :
    dropBytes? (crlf s) ((Move.crlf s).offset n) = (dropBytes? s n).map crlf := by
  induction s generalizing n with
  | nil => cases n <;> rfl
  | cons c s ih =>
    cases n with
    | zero => rw [offset_crlf_zero, dropBytes?_zero, dropBytes?_zero, Option.map_some]
    | succ n =>
      by_cases hc : c = '\n'
      · subst hc
        rw [offset_crlf_feed, crlf_feed]
        exact ih n
      · rw [crlf_cons hc, dropBytes?]
        split_ifs with hle
        · obtain ⟨k, hk⟩ := Nat.exists_eq_add_of_le hle
          rw [hk, offset_crlf_cons hc, Nat.add_sub_cancel_left, ← ih k]
          exact dropBytes?_add [c] (crlf s) _
        · rw [offset_crlf_inside hc s (by omega), dropBytes?, if_neg hle, Option.map_none]

theorem takeBytes?_crlf (s : List Char) (n : Nat) :
    takeBytes? (crlf s) ((Move.crlf s).offset n) = (takeBytes? s n).map crlf := by
  cases htake : takeBytes? s n with
  | some a =>
    obtain ⟨b, rfl, rfl⟩ := takeBytes?_eq_some.1 htake
    rw [offset_crlf_place, crlf_append, takeBytes?_append, Option.map_some]
  | none =>
    -- a cut there would be a cut here
    refine Option.eq_none_iff_forall_ne_some.2 fun u hu => ?_
    obtain ⟨v, hcut, hlen⟩ := takeBytes?_eq_some.1 hu
    have hdrop := dropBytes?_eq_some.2 ⟨u, hcut, hlen⟩
    rw [dropBytes?_crlf] at hdrop
    obtain ⟨w, hw, -⟩ := Option.map_eq_some_iff.1 hdrop
    obtain ⟨a, rfl, rfl⟩ := dropBytes?_eq_some.1 hw
    simp [takeBytes?_append] at htake

theorem slice?_crlf (s : List Char) (i j : Nat) :
    slice? (crlf s) ((Move.crlf s).offset i) ((Move.crlf s).offset j) = (slice? s i j).map crlf := by
  simp only [slice?, (strictMono_crlf s).le_iff_le]
  split_ifs with hij
  · rw [dropBytes?_crlf]
    cases hdrop : dropBytes? s i with
    | none => rfl
    | some rest =>
      obtain ⟨a, rfl, rfl⟩ := dropBytes?_eq_some.1 hdrop
      obtain ⟨k, rfl⟩ := Nat.exists_eq_add_of_le hij
      rw [Option.map_some, Option.bind_some, Option.bind_some, offset_crlf_place, offset_crlf_append,
        Nat.add_sub_cancel_left, Nat.add_sub_cancel_left, takeBytes?_crlf]
  · rfl

theorem placeFrom?_crlf (s : List Char) (n : Nat) :
    placeFrom? (crlf s) ((Move.crlf s).offset n) =
      (placeFrom? s n).map fun p => ((Move.crlf s).offset p.1, crlf p.2) := by
  induction s generalizing n with
  | nil => cases n <;> rfl
  | cons c s ih =>
    cases n with
    | zero => rw [offset_crlf_zero, placeFrom?_zero, placeFrom?_zero, Option.map_some, offset_crlf_zero]
    | succ n =>
      rw [placeFrom?, Option.map_map]
      by_cases hc : c = '\n'
      · subst hc
        have htwo := placeFrom?_add ['\r', '\n'] (crlf s) ((Move.crlf s).offset n)
        rw [offset_crlf_feed, crlf_feed, Nat.add_comm]
        refine htwo.trans ?_
        rw [ih n, Option.map_map]
        refine congrArg (Option.map · _) (funext fun p => ?_)
        have hfeed : '\n'.utf8Size + p.1 = p.1 + 1 := Nat.add_comm _ _
        have hlen : byteLen ['\r', '\n'] = 2 := rfl
        simp only [Function.comp_apply, hfeed, hlen, offset_crlf_feed, Nat.add_comm 2]
      · have hrest : ∀ p : Nat × List Char, (c.utf8Size + (Move.crlf s).offset p.1, crlf p.2) =
            ((Move.crlf (c :: s)).offset (c.utf8Size + p.1), crlf p.2) := fun p => by rw [offset_crlf_cons hc]
        rw [crlf_cons hc]
        rcases Nat.le_total (n + 1) c.utf8Size with hle | hle
        · rw [offset_crlf_inside hc s hle, placeFrom?, Nat.sub_eq_zero_of_le hle, placeFrom?_zero, placeFrom?_zero,
            Option.map_some, Option.map_some]
          have h := hrest (0, s)
          rw [offset_crlf_zero] at h
          exact congrArg some h
        · obtain ⟨k, hk⟩ := Nat.exists_eq_add_of_le hle
          have hone := placeFrom?_add [c] (crlf s) ((Move.crlf s).offset k)
          rw [byteLen_cons, byteLen_nil, Nat.add_zero] at hone
          rw [hk, offset_crlf_cons hc, Nat.add_sub_cancel_left]
          refine hone.trans ?_
          rw [ih k, Option.map_map]
          exact congrArg (Option.map · _) (funext hrest)

/-! ## Searches -/

/-- what may be looked for: a text without line ends -/
def Unbroken (x : List Char) : Prop := '\n' ∉ x ∧ '\r' ∉ x

theorem Unbroken.tail (h : Unbroken (c :: x)) : Unbroken x :=
  ⟨List.not_mem_of_not_mem_cons h.1, List.not_mem_of_not_mem_cons h.2⟩

/-- no such text begins with a line end -/
theorem Unbroken.isPrefixOf_end (hx : Unbroken x) (hne : x ≠ []) (hc : c = '\n' ∨ c = '\r') (s : List Char) :
    x.isPrefixOf (c :: s) = false := by
  obtain ⟨d, x, rfl⟩ := List.exists_cons_of_ne_nil hne
  have hd : d ≠ c := by
    rcases hc with rfl | rfl
    · exact (List.ne_of_not_mem_cons hx.1).symm
    · exact (List.ne_of_not_mem_cons hx.2).symm
  rw [List.isPrefixOf, beq_eq_false_iff_ne.2 hd, Bool.false_and]

theorem isPrefixOf_crlf (hx : Unbroken x) (s : List Char) : x.isPrefixOf (crlf s) = x.isPrefixOf s := by
  induction x generalizing s with
  | nil => rw [List.isPrefixOf, List.isPrefixOf]
  | cons d x ih =>
    cases s with
    | nil => rfl
    | cons c s =>
      by_cases hc : c = '\n'
      · rw [hc, crlf_feed, hx.isPrefixOf_end (List.cons_ne_nil d x) (Or.inr rfl),
          hx.isPrefixOf_end (List.cons_ne_nil d x) (Or.inl rfl)]
      · rw [crlf_cons hc, List.isPrefixOf, List.isPrefixOf, ih hx.tail]

theorem find?_skip (h : x.isPrefixOf (c :: s) = false) : find? x (c :: s) = (find? x s).map (c.utf8Size + ·) := by
  rw [find?, h, if_neg Bool.false_ne_true]

theorem rfind?_skip (h : x.isPrefixOf (c :: s) = false) : rfind? x (c :: s) = (rfind? x s).map (c.utf8Size + ·) := by
  rw [rfind?, h, if_neg Bool.false_ne_true]
  cases rfind? x s <;> rfl

/-- behind a line feed the search goes on -/
theorem map_offset_crlf_feed (s : List Char) (p? : Option Nat) :
    ((p?.map (Move.crlf s).offset).map ('\n'.utf8Size + ·)).map ('\r'.utf8Size + ·) =
      (p?.map ('\n'.utf8Size + ·)).map (Move.crlf ('\n' :: s)).offset := by
  rw [Option.map_map, Option.map_map, Option.map_map]
  refine congrArg (Option.map · _) (funext fun p => ?_)
  have hsize : '\n'.utf8Size = 1 ∧ '\r'.utf8Size = 1 := ⟨rfl, rfl⟩
  have hfeed := offset_crlf_feed s p
  rw [Nat.add_comm p 1] at hfeed
  simp only [Function.comp_apply, hsize, hfeed]
  omega

/-- behind a text the search goes on as in the rest -/
theorem map_offset_crlf_append (a t : List Char) (p? : Option Nat) :
    (p?.map (Move.crlf t).offset).map (byteLen (crlf a) + ·) =
      (p?.map (byteLen a + ·)).map (Move.crlf (a ++ t)).offset := by
  rw [Option.map_map, Option.map_map]
  exact congrArg (Option.map · p?) (funext fun p => (offset_crlf_append a t p).symm)

theorem map_offset_crlf_cons (hc : c ≠ '\n') (s : List Char) (p? : Option Nat) :
    (p?.map (Move.crlf s).offset).map (c.utf8Size + ·) = (p?.map (c.utf8Size + ·)).map (Move.crlf (c :: s)).offset := by
  rw [Option.map_map, Option.map_map]
  exact congrArg (Option.map · p?) (funext fun p => (offset_crlf_cons hc s p).symm)

theorem find?_crlf (hx : Unbroken x) (hne : x ≠ []) (s : List Char) :
    find? x (crlf s) = (find? x s).map (Move.crlf s).offset := by
  induction s with
  | nil => simp [find?, hne]
  | cons c s ih =>
    by_cases hc : c = '\n'
    · rw [hc, crlf_feed, find?_skip (hx.isPrefixOf_end hne (Or.inr rfl) _),
        find?_skip (hx.isPrefixOf_end hne (Or.inl rfl) _), find?_skip (hx.isPrefixOf_end hne (Or.inl rfl) _), ih,
        map_offset_crlf_feed]
    · have hprefix := isPrefixOf_crlf hx (c :: s)
      rw [crlf_cons hc] at hprefix ⊢
      rw [find?, find?, hprefix, ih]
      split_ifs
      · rw [Option.map_some, offset_crlf_zero]
      · exact map_offset_crlf_cons hc s _

theorem rfind?_crlf (hx : Unbroken x) (hne : x ≠ []) (s : List Char) :
    rfind? x (crlf s) = (rfind? x s).map (Move.crlf s).offset := by
  induction s with
  | nil => simp [rfind?, hne]
  | cons c s ih =>
    by_cases hc : c = '\n'
    · rw [hc, crlf_feed, rfind?_skip (hx.isPrefixOf_end hne (Or.inr rfl) _),
        rfind?_skip (hx.isPrefixOf_end hne (Or.inl rfl) _), rfind?_skip (hx.isPrefixOf_end hne (Or.inl rfl) _), ih,
        map_offset_crlf_feed]
    · have hprefix := isPrefixOf_crlf hx (c :: s)
      rw [crlf_cons hc] at hprefix ⊢
      rw [rfind?, rfind?, hprefix, ih]
      cases rfind? x s with
      | some p => exact congrArg some (offset_crlf_cons hc s p).symm
      | none =>
        simp only [Option.map_none]
        split_ifs
        · rw [Option.map_some, offset_crlf_zero]
        · rfl

theorem countRun_crlf (s : List Char) : countRun '`' (crlf s) = countRun '`' s := by
  induction s with
  | nil => rfl
  | cons c s ih =>
    by_cases hc : c = '\n'
    · subst hc
      rfl
    · rw [crlf_cons hc]
      unfold countRun at ih ⊢
      rw [runLen, runLen, ih]

theorem runFrom?_skip (hc : c ≠ '`') (len : Nat) (inRun : Bool) (s : List Char) :
    runFrom? len inRun 0 (c :: s) = (runFrom? len false 0 s).map (c.utf8Size + ·) := by
  rw [runFrom?, if_neg hc, Nat.add_comm, runFrom?_add]

theorem runFrom?_crlf (len : Nat) (inRun : Bool) (s : List Char) :
    runFrom? len inRun 0 (crlf s) = (runFrom? len inRun 0 s).map (Move.crlf s).offset := by
  induction s generalizing inRun with
  | nil => rfl
  | cons c s ih =>
    by_cases hc : c = '\n'
    · rw [hc, crlf_feed, runFrom?_skip (by decide), runFrom?_skip (by decide), runFrom?_skip (by decide), ih,
        map_offset_crlf_feed]
    rw [crlf_cons hc]
    by_cases htick : c = '`'
    · have hcount := countRun_crlf (c :: s)
      rw [crlf_cons hc] at hcount
      rw [runFrom?, runFrom?, if_pos htick, if_pos htick, hcount]
      split_ifs
      · rw [Option.map_some, offset_crlf_zero]
      · have hone : ∀ t, runFrom? len true (0 + 1) t = (runFrom? len true 0 t).map (c.utf8Size + ·) := by
          intro t
          rw [htick, ← runFrom?_add]
          rfl
        rw [hone, hone, ih, map_offset_crlf_cons hc]
    · rw [runFrom?_skip htick, runFrom?_skip htick, ih, map_offset_crlf_cons hc]

/-- **Runs of backticks are found at the moved place.** -/
theorem findRun?_crlf (s : List Char) (start len : Nat) :
    findRun? (crlf s) ((Move.crlf s).offset start) len = (findRun? s start len).map (Move.crlf s).offset := by
  rw [findRun?, findRun?, placeFrom?_crlf]
  cases hplace : placeFrom? s start with
  | none => rfl
  | some y =>
    obtain ⟨pos, rest⟩ := y
    obtain ⟨front, rfl, rfl, -⟩ := of_placeFrom? hplace
    have hadd : ∀ (n : Nat) (t : List Char), runFrom? len false n t = (runFrom? len false 0 t).map (n + ·) :=
      fun n t => runFrom?_add len false n 0 t
    simp only [Option.map_some, offset_crlf_place]
    rw [hadd (byteLen front), hadd (byteLen (crlf front)), runFrom?_crlf, map_offset_crlf_append]

/-! ## Lines -/

theorem LineAt.crlf {before line after : List Char} (h : LineAt i before line after) (hcr : '\r' ∉ after) :
    LineAt i (crlf before) line (crlf after) := by
  refine ⟨by rw [count_crlf, h.number], ?_, h.noFeed, ?_⟩
  · rcases h.begins with rfl | hlast
    · exact Or.inl rfl
    · obtain ⟨b, rfl⟩ := List.getLast?_eq_some_iff.1 hlast
      exact Or.inr (by rw [crlf_append]; exact List.getLast?_append_of_ne_nil _ (List.cons_ne_nil _ _))
  · rcases h.ends with rfl | ⟨hafter, -⟩ | ⟨t, rfl⟩
    · exact Or.inl rfl
    · obtain ⟨t, rfl⟩ := List.head?_eq_some_iff.1 hafter
      exact Or.inr (Or.inr ⟨_, rfl⟩)
    · simp at hcr

section

variable (hcr : '\r' ∉ s)
include hcr

theorem extent?_crlf (i : Nat) :
    (LineIndex.ofText (crlf s)).extent? i = ((LineIndex.ofText s).extent? i).map (Move.crlf s).extent := by
  by_cases hi : i ≤ s.count '\n'
  · obtain ⟨b, l, a, rfl, hl⟩ := exists_lineAt s hi
    have hl' := hl.crlf (by simp_all)
    have htext : crlf (b ++ l ++ a) = crlf b ++ l ++ crlf a := by
      rw [crlf_append, crlf_append, crlf_of_not_mem hl.noFeed]
    have hstart : (Move.crlf (b ++ l ++ a)).offset (byteLen b) = byteLen (crlf b) := by
      rw [List.append_assoc, offset_crlf_place]
    have hstop : (Move.crlf (b ++ l ++ a)).offset (byteLen b + byteLen l) = byteLen (crlf b) + byteLen l := by
      rw [← byteLen_append, offset_crlf_place, crlf_append, byteLen_append, crlf_of_not_mem hl.noFeed]
    rw [htext, LineIndex.extent?_of_lineAt hl', LineIndex.extent?_of_lineAt hl, Option.map_some, Move.extent, hstart,
      hstop]
  · have hnone : ∀ u : List Char, u.count '\n' = s.count '\n' → (LineIndex.ofText u).extent? i = none := by
      intro u hu
      rw [LineIndex.extent?, List.getElem?_eq_none]
      have hcount := LineIndex.count_ofText u
      rw [LineIndex.count] at hcount
      omega
    rw [hnone _ (count_crlf s), hnone s rfl, Option.map_none]

theorem lineText?_crlf (i : Nat) : (Source.ofText (crlf s)).lineText? i = (Source.ofText s).lineText? i := by
  change ((LineIndex.ofText (crlf s)).extent? i).bind _ = ((LineIndex.ofText s).extent? i).bind _
  rw [extent?_crlf hcr, Option.bind_map]
  cases hextent : (LineIndex.ofText s).extent? i with
  | none => rfl
  | some e =>
    obtain ⟨b, l, a, rfl, hl, rfl⟩ := LineIndex.extent?_eq_some.1 hextent
    have hslice := slice?_crlf (b ++ l ++ a) (byteLen b) (byteLen b + byteLen l)
    rw [slice?_append, Option.map_some, crlf_of_not_mem hl.noFeed] at hslice
    exact hslice.trans (slice?_append b l a).symm

end

theorem lineOf_crlf (h : IsPlace s p) :
    (LineIndex.ofText (crlf s)).lineOf ((Move.crlf s).offset p) = (LineIndex.ofText s).lineOf p := by
  obtain ⟨a, b, rfl, rfl⟩ := h
  rw [offset_crlf_place, crlf_append, LineIndex.lineOf_append, LineIndex.lineOf_append, count_crlf]

/-! ## Searches in a source -/

/-- the end of a slice goes as far as its start, if no line ends in it -/
theorem offset_crlf_slice (hx : '\n' ∉ x) (h : slice? s i (i + byteLen x) = some x) :
    (Move.crlf s).offset (i + byteLen x) = (Move.crlf s).offset i + byteLen x := by
  obtain ⟨a, b, rfl, rfl, -⟩ := slice?_eq_some.1 h
  rw [← byteLen_append, offset_crlf_place, crlf_append, byteLen_append, crlf_of_not_mem hx, List.append_assoc,
    offset_crlf_place]

theorem findBetween?_crlf (hx : Unbroken x) (hne : x ≠ []) (start stop : Nat) :
    (Source.ofText (crlf s)).findBetween? ((Move.crlf s).offset start) ((Move.crlf s).offset stop) x =
      ((Source.ofText s).findBetween? start stop x).map (Move.crlf s).offset := by
  change (slice? (crlf s) _ _).bind _ = ((slice? s start stop).bind _).map _
  rw [slice?_crlf]
  cases hslice : slice? s start stop with
  | none => rfl
  | some u =>
    obtain ⟨a, b, rfl, rfl, -⟩ := slice?_eq_some.1 hslice
    rw [Option.map_some, Option.bind_some, Option.bind_some, find?_crlf hx hne, Option.map_map, Option.map_map]
    cases hfind : find? x u with
    | none => rfl
    | some k =>
      obtain ⟨c, d, rfl, rfl⟩ := of_find? hfind
      have htext : a ++ (c ++ x ++ d) ++ b = a ++ (c ++ (x ++ d ++ b)) := by simp
      have hstart : (Move.crlf (c ++ x ++ d)).offset (byteLen c) = byteLen (crlf c) := by
        rw [List.append_assoc, offset_crlf_place]
      rw [Option.map_some, Option.map_some, Function.comp_apply, Function.comp_apply, hstart, htext, offset_crlf_place,
        offset_crlf_append, offset_crlf_place]

theorem findBefore?_crlf {content : List Char} (hcontent : Unbroken content) (hx : Unbroken x) :
    (Source.ofText (crlf s)).findBefore? content x =
      ((Source.ofText s).findBefore? content x).map (Move.crlf s).offset := by
  unfold Source.findBefore?
  split_ifs with hempty
  · rfl
  obtain ⟨hne, hne'⟩ : content ≠ [] ∧ x ≠ [] := by simpa using hempty
  change (find? content (crlf s)).bind (fun pos => (takeBytes? (crlf s) pos).bind _) =
    ((find? content s).bind fun pos => (takeBytes? s pos).bind _).map _
  rw [find?_crlf hcontent hne]
  cases hfind : find? content s with
  | none => rfl
  | some pos =>
    obtain ⟨a, b, rfl, rfl⟩ := of_find? hfind
    rw [Option.map_some, Option.bind_some, Option.bind_some, takeBytes?_crlf, List.append_assoc, takeBytes?_append,
      Option.map_some, Option.bind_some, Option.bind_some, rfind?_crlf hx hne']
    cases hlast : rfind? x a with
    | none => rfl
    | some p =>
      obtain ⟨c, d, rfl, rfl⟩ := of_rfind? hlast
      simp only [Option.map_some, List.append_assoc, offset_crlf_place]

theorem findAfter?_crlf {content : List Char} (hcontent : Unbroken content) (hx : Unbroken x) :
    (Source.ofText (crlf s)).findAfter? content x =
      ((Source.ofText s).findAfter? content x).map (Move.crlf s).offset := by
  unfold Source.findAfter?
  split_ifs with hempty
  · rfl
  obtain ⟨hne, hne'⟩ : content ≠ [] ∧ x ≠ [] := by simpa using hempty
  change (find? content (crlf s)).bind (fun pos => (dropBytes? (crlf s) (pos + byteLen content)).bind _) =
    ((find? content s).bind fun pos => (dropBytes? s (pos + byteLen content)).bind _).map _
  rw [find?_crlf hcontent hne]
  cases hfind : find? content s with
  | none => rfl
  | some pos =>
    obtain ⟨a, b, rfl, rfl⟩ := of_find? hfind
    have hstop := offset_crlf_slice hcontent.1 (slice?_append a content b)
    rw [Option.map_some, Option.bind_some, Option.bind_some, ← hstop, dropBytes?_crlf, ← byteLen_append,
      dropBytes?_append, Option.map_some, Option.bind_some, Option.bind_some, find?_crlf hx hne', offset_crlf_place]
    exact map_offset_crlf_append (a ++ content) b _

/-- all lines, and whatever has no line end -/
def Scope.unbroken : Scope := ⟨fun _ => True, Unbroken⟩

/-- **A text without carriage returns is carried** when every line feed gets one. -/
theorem carries_crlf (hcr : '\r' ∉ s) : Carries (.crlf s) .unbroken s (crlf s) where
  mono := strictMono_crlf s
  plain h1 h2 := ⟨h1, h2⟩
  earlier _ _ := trivial
  missing _ _ := trivial
  extent {i} _ := by
    rw [lines_crlf]
    exact extent?_crlf hcr i
  text {i} _ := by
    rw [lines_crlf]
    exact lineText?_crlf hcr i
  onLine {i e k} _ he hk := by
    obtain ⟨b, l, a, rfl, hl, rfl⟩ := LineIndex.extent?_eq_some.1 he
    simp only at hk ⊢
    rw [List.append_assoc, offset_crlf_append, offset_crlf_place, offset_crlf_line hl.noFeed a (by omega)]
  onNeedle hx h := offset_crlf_slice hx.1 h
  whole _ := by
    have hplace := offset_crlf_place s []
    rw [List.append_nil] at hplace
    exact ⟨offset_crlf_zero s, hplace⟩
  between hx hne _ := findBetween?_crlf hx hne _ _
  before _ hcontent hx := findBefore?_crlf hcontent hx
  after _ hcontent hx := findAfter?_crlf hcontent hx
  ticksOn {i start run} _ := by
    rw [findRun?_crlf, lines_crlf]
    cases hrun : findRun? s start run with
    | none => rfl
    | some p =>
      have hline := lineOf_crlf (IsPlace.of_slice (findRun?_sound hrun).1).1
      rw [Option.map_some, Option.filter_some, Option.filter_some]
      change (if ((LineIndex.ofText (crlf s)).lineOf _ == i) = true then _ else _) =
        Option.map _ (if ((LineIndex.ofText s).lineOf p == i) = true then _ else _)
      rw [hline]
      split_ifs <;> rfl
  ticksTo {start stop run} _ := by
    rw [findRun?_crlf]
    cases hrun : findRun? s start run with
    | none => rfl
    | some p =>
      have hticks : '\n' ∉ List.replicate run '`' := by simp [List.mem_replicate]
      have hlen : byteLen (List.replicate run '`') = run := byteLen_replicate_one rfl run
      have hslice := (findRun?_sound hrun).1
      have hstop := offset_crlf_slice hticks (i := p) (s := s) (by rwa [hlen])
      rw [hlen] at hstop
      rw [Option.map_some, Option.filter_some, Option.filter_some, ← hstop]
      simp only [(strictMono_crlf s).le_iff_le]
      split_ifs <;> rfl

end MarkVeil.Text
