/-
What searches in a text find.

Each search answers with a place where its needle stands in the text. The other way round, a needle without line ends
is found where it stands if the search has come there: a cursor `Reaches` a place when it is at the place or anywhere
before a line that begins at the place, and `Around` gives the line of the needle.
-/
import MarkVeil.Proofs.Text.Lines
import MarkVeil.Proofs.Text.Search
import MarkVeil.Text.Source

namespace MarkVeil.Text.Source

variable {s text needle marker content : List Char} {src : Source} {start stop cursor line base p : Nat}

theorem findBetween?_sound (h : src.findBetween? start stop needle = some p) :
    slice? src.text p (p + byteLen needle) = some needle := by
  obtain ⟨t, ht, h⟩ := Option.bind_eq_some_iff.1 h
  obtain ⟨k, hk, rfl⟩ := Option.map_eq_some_iff.1 h
  exact slice?_of_find? ht hk

/-- what is found between two offsets lies between them -/
theorem findBetween?_bounds (h : src.findBetween? start stop needle = some p) :
    start ≤ p ∧ p + byteLen needle ≤ stop := by
  obtain ⟨t, ht, h⟩ := Option.bind_eq_some_iff.1 h
  obtain ⟨k, hk, rfl⟩ := Option.map_eq_some_iff.1 h
  obtain ⟨a, b, -, -, rfl⟩ := slice?_eq_some.1 ht
  obtain ⟨c, d, rfl, rfl⟩ := of_find? hk
  simp only [byteLen_append]
  omega

theorem findOnLine?_sound (h : src.findOnLine? line marker cursor = some p) :
    slice? src.text p (p + byteLen marker) = some marker := by
  unfold findOnLine? at h
  split_ifs at h
  obtain ⟨start, -, h⟩ := Option.bind_eq_some_iff.1 h
  obtain ⟨stop, -, h⟩ := Option.bind_eq_some_iff.1 h
  exact findBetween?_sound h

theorem findForward?_sound {line? : Option Nat} (h : src.findForward? start line? needle = some p) :
    slice? src.text p (p + byteLen needle) = some needle := by
  unfold findForward? at h
  split_ifs at h
  obtain ⟨stop, -, h⟩ := Option.bind_eq_some_iff.1 h
  exact findBetween?_sound h

theorem findBefore?_sound (h : src.findBefore? content marker = some p) :
    slice? src.text p (p + byteLen marker) = some marker := by
  unfold findBefore? at h
  split_ifs at h
  obtain ⟨pos, -, h⟩ := Option.bind_eq_some_iff.1 h
  obtain ⟨front, hfront, h⟩ := Option.bind_eq_some_iff.1 h
  obtain ⟨b, htext, -⟩ := takeBytes?_eq_some.1 hfront
  obtain ⟨a, c, rfl, rfl⟩ := of_rfind? h
  exact slice?_eq_some.2 ⟨a, c ++ b, by rw [htext, List.append_assoc], rfl, rfl⟩

theorem findAfter?_sound (h : src.findAfter? content marker = some p) :
    slice? src.text p (p + byteLen marker) = some marker := by
  unfold findAfter? at h
  split_ifs at h
  obtain ⟨pos, -, h⟩ := Option.bind_eq_some_iff.1 h
  obtain ⟨rest, hrest, h⟩ := Option.bind_eq_some_iff.1 h
  obtain ⟨k, hk, rfl⟩ := Option.map_eq_some_iff.1 h
  obtain ⟨a, htext, hlen⟩ := dropBytes?_eq_some.1 hrest
  obtain ⟨b, c, rfl, rfl⟩ := of_find? hk
  exact slice?_eq_some.2 ⟨a ++ b, c, by rw [htext]; simp, by rw [byteLen_append, hlen], rfl⟩

/-- a line's start and content are its extent -/
theorem extent?_of_lineText? (hbase : (ofText s).lines.start? line = some base)
    (htext : (ofText s).lineText? line = some text) :
    (ofText s).lines.extent? line = some ⟨base, base + byteLen text⟩ ∧
      slice? s base (base + byteLen text) = some text := by
  obtain ⟨e, he, rfl⟩ := Option.map_eq_some_iff.1 hbase
  obtain ⟨e', he', hslice, hstop⟩ := LineIndex.text?_eq_some.1 htext
  obtain rfl : e = e' := Option.some.inj (he.symm.trans he')
  obtain ⟨start, stop⟩ := e
  simp only at hstop hslice
  subst hstop
  exact ⟨he, hslice⟩

/-- a line's start and content cut the text there -/
theorem exists_lineAt_of_lineText? (hbase : (ofText s).lines.start? line = some base)
    (htext : (ofText s).lineText? line = some text) :
    ∃ b a, s = b ++ text ++ a ∧ LineAt line b text a ∧ byteLen b = base := by
  obtain ⟨hextent, hslice⟩ := extent?_of_lineText? hbase htext
  obtain ⟨b, l, a, hs, hl, hplace⟩ := LineIndex.extent?_eq_some.1 hextent
  obtain ⟨hstart, hstop⟩ := Extent.mk.inj hplace
  rw [hstop, hstart, hs, slice?_append] at hslice
  obtain rfl := Option.some.inj hslice
  exact ⟨b, a, hs, hl, hstart.symm⟩

/-- a slice of a line's content is on the line, its end included -/
theorem lineOf_slice {m : List Char} {q : Nat} (hbase : (ofText s).lines.start? line = some base)
    (htext : (ofText s).lineText? line = some text) (h : slice? text p q = some m) :
    (ofText s).lines.lineOf (base + p) = line ∧ (ofText s).lines.lineOf (base + q) = line := by
  obtain ⟨hextent, -⟩ := extent?_of_lineText? hbase htext
  obtain ⟨a, b, rfl, rfl, rfl⟩ := slice?_eq_some.1 h
  simp only [byteLen_append] at hextent
  exact ⟨LineIndex.lineOf_of_extent? hextent (by simp only; omega) (by simp only; omega),
    LineIndex.lineOf_of_extent? hextent (by simp only; omega) (by simp only; omega)⟩

/-- what is found on a line is on it, its end included -/
theorem findOnLine?_lines (h : (ofText s).findOnLine? line marker cursor = some p) :
    (ofText s).lines.lineOf p = line ∧ (ofText s).lines.lineOf (p + byteLen marker) = line := by
  unfold findOnLine? at h
  split_ifs at h
  obtain ⟨start, hstart, h⟩ := Option.bind_eq_some_iff.1 h
  obtain ⟨stop, hstop, h⟩ := Option.bind_eq_some_iff.1 h
  obtain ⟨e, he, hfrom⟩ := Option.map_eq_some_iff.1 hstart
  obtain rfl : e.stop = stop := by
    rw [LineIndex.stop?, he] at hstop
    exact Option.some.inj hstop
  have hle : e.start ≤ start := by split_ifs at hfrom <;> omega
  obtain ⟨t, ht, h⟩ := Option.bind_eq_some_iff.1 h
  obtain ⟨k, hk, rfl⟩ := Option.map_eq_some_iff.1 h
  obtain ⟨a, b, -, -, hstop⟩ := slice?_eq_some.1 ht
  obtain ⟨c, d, rfl, rfl⟩ := of_find? hk
  simp only [byteLen_append] at hstop
  exact ⟨LineIndex.lineOf_of_extent? he (by omega) (by omega), LineIndex.lineOf_of_extent? he (by omega) (by omega)⟩

/-- a line begins and stops at places -/
theorem isPlace_of_extent? {e : Extent} (h : (ofText s).lines.extent? line = some e) :
    IsPlace s e.start ∧ IsPlace s e.stop := by
  obtain ⟨b, l, a, rfl, -, rfl⟩ := LineIndex.extent?_eq_some.1 h
  exact IsPlace.of_slice (slice?_append b l a)

/-! ## What stands where the search begins -/

/-- a search from the cursor on the line of the end of `a` begins there -/
def Reaches (a : List Char) (cursor : Nat) : Prop := cursor = byteLen a ∨ cursor ≤ byteLen a ∧ BeginsLine a

theorem Reaches.le {a : List Char} (h : Reaches a cursor) : cursor ≤ byteLen a := by
  rcases h with rfl | h
  · exact le_rfl
  · exact h.1

/-- the line of `m`, which stands behind `a`: it begins at `base` and has `k` before and `l` after `m` -/
structure Around (src : Source) (a m : List Char) (base : Nat) (k l : List Char) : Prop where
  extent : src.lines.extent? (a.count '\n') = some ⟨base, base + byteLen k + byteLen m + byteLen l⟩
  text : src.lineText? (a.count '\n') = some (k ++ (m ++ l))
  slice : slice? src.text (byteLen a) (base + byteLen k + byteLen m + byteLen l) = some (m ++ l)
  place : byteLen a = base + byteLen k
  front : k <:+ a
  begins : BeginsLine a → k = []

variable {a m k l : List Char}

/-- what stands on a line -/
theorem around_of_lineAt {before after : List Char} {i : Nat} (h : LineAt i before (k ++ m ++ l) after) :
    Around (ofText (before ++ (k ++ m ++ l) ++ after)) (before ++ k) m (byteLen before) k l := by
  have hcount : (before ++ k).count '\n' = i := by
    have hk : '\n' ∉ k := fun hk => h.noFeed (by simp [hk])
    rw [List.count_append, List.count_eq_zero.2 hk, Nat.add_zero, h.number]
  have hextent := LineIndex.extent?_of_lineAt h
  have hstop : byteLen before + byteLen (k ++ m ++ l) = byteLen before + byteLen k + byteLen m + byteLen l := by
    simp only [byteLen_append]; omega
  refine ⟨by rw [hcount, ofText, hextent, hstop], ?_, ?_, by simp, ⟨before, rfl⟩, ?_⟩
  · rw [hcount]
    exact LineIndex.text?_eq_some.2 ⟨_, hextent, slice?_eq_some.2 ⟨before, after, by simp, rfl, by simp⟩,
      by simp⟩
  · exact slice?_eq_some.2 ⟨before ++ k, after, by simp [ofText], by simp, by simp; omega⟩
  · intro hbegins
    by_contra hk
    obtain ⟨c, hc⟩ := List.getLast?_isSome.2 hk |> Option.isSome_iff_exists.1
    have hc' : c ≠ '\n' := by
      rintro rfl
      exact h.noFeed (by simp [List.mem_of_getLast? hc])
    rcases hbegins with hnil | hlast
    · exact hk (List.append_eq_nil_iff.1 hnil).2
    · rw [List.getLast?_append_of_ne_nil before hk, hc] at hlast
      exact hc' (Option.some.inj hlast)

theorem exists_around (a b : List Char) (hne : m ≠ []) (hlf : '\n' ∉ m) (hcr : '\r' ∉ m) :
    ∃ base k l, Around (ofText (a ++ (m ++ b))) a m base k l := by
  obtain ⟨before, k, l, after, rfl, rfl, hline⟩ := exists_line_around a b hne hlf hcr
  have htext : before ++ k ++ (m ++ (l ++ after)) = before ++ (k ++ m ++ l) ++ after := by simp
  exact ⟨byteLen before, k, l, htext ▸ around_of_lineAt hline⟩

section Around

variable (h : Around src a m base k l)
include h

theorem Around.start? : src.lines.start? (a.count '\n') = some base := by
  rw [LineIndex.start?, h.extent, Option.map_some]

theorem Around.stop? : src.lines.stop? (a.count '\n') = some (base + byteLen k + byteLen m + byteLen l) := by
  rw [LineIndex.stop?, h.extent, Option.map_some]

/-- a cursor before a line that begins at the place is before that line -/
theorem Around.base_le (hc : Reaches a cursor) : cursor = byteLen a ∨ cursor ≤ base ∧ base = byteLen a := by
  rcases hc with rfl | ⟨hle, hb⟩
  · exact Or.inl rfl
  · have hk := h.begins hb
    have hplace := h.place
    rw [hk, byteLen_nil, Nat.add_zero] at hplace
    exact Or.inr ⟨hplace ▸ hle, hplace.symm⟩

theorem Around.scanStart? (hc : Reaches a cursor) : src.scanStart? (a.count '\n') cursor = some (byteLen a) := by
  have hplace := h.place
  rw [Source.scanStart?, h.extent, Option.map_some, Option.some.injEq]
  simp only
  rcases h.base_le hc with rfl | ⟨hle, hbase⟩
  · rw [if_pos ⟨by omega, by omega⟩]
  · split_ifs
    · omega
    · exact hbase

/-- a marker is found on its line -/
theorem Around.findOnLine? (hc : Reaches a cursor) (hm : m ≠ []) :
    src.findOnLine? (a.count '\n') m cursor = some (byteLen a) := by
  rw [Source.findOnLine?, if_neg (by simpa using hm), h.scanStart? hc, Option.bind_some, h.stop?, Option.bind_some,
    findBetween?, h.slice, Option.bind_some, find?_prefix, Option.map_some, Nat.add_zero]

/-- a content is found from its line on -/
theorem Around.findForward? (hc : Reaches a cursor) (hm : m ≠ []) :
    src.findForward? (max cursor base) (some (a.count '\n')) m = some (byteLen a) := by
  have hplace := h.place
  have hmax : max cursor base = byteLen a := by
    rcases h.base_le hc with rfl | ⟨hle, hbase⟩ <;> omega
  rw [Source.findForward?, if_neg (by simpa using hm), hmax, h.stop?, Option.bind_some,
    findBetween?, h.slice, Option.bind_some, find?_prefix, Option.map_some, Nat.add_zero]

end Around

end MarkVeil.Text.Source
