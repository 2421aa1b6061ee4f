/-
Markers of headings and fences are found where they stand.

`Heading.IsAtx`, `Heading.IsUnderline` and `Fence.ClosesAs` say what stands on the line of a heading, under one, and at
the end of a fence; a marker is read exactly there (`atx?_eq_some`, `underline?_eq_some`, `closing?_eq_some`).
-/
import MarkVeil.Marker.CodeSpan
import MarkVeil.Marker.Heading
import MarkVeil.Proofs.Text.Search

namespace MarkVeil.Marker

open MarkVeil.Text

variable {s line marker : List Char}

namespace Heading

theorem indent_size (c : Char) (h : (c == ' ' || c == '\t') = true) : c.utf8Size = 1 := by
  simp only [Bool.or_eq_true, beq_iff_eq] at h
  rcases h with rfl | rfl <;> rfl

theorem isPlace_indentLen (s : List Char) : IsPlace s (indentLen s) :=
  ⟨s.take (indentLen s), s.drop (indentLen s), (List.take_append_drop _ _).symm, byteLen_run indent_size s⟩

/-- a line is an indent of spaces and tabs, and a rest that begins with neither -/
structure Indented (line indent rest : List Char) : Prop where
  cut : line = indent ++ rest
  blank : ∀ c ∈ indent, c = ' ' ∨ c = '\t'
  stops : ∀ c ∈ rest.head?, ¬ (c = ' ' ∨ c = '\t')

/-- every line has its indent in front -/
theorem indented_drop (line : List Char) :
    Indented line (line.take (indentLen line)) (line.drop (indentLen line)) := by
  refine ⟨(List.take_append_drop _ _).symm, ?_, ?_⟩
  · intro c hc
    rw [indentLen, take_runLen] at hc
    simpa using List.mem_takeWhile_imp hc
  · intro c hc
    simpa using head?_drop_runLen _ line c hc

/-- and there is no other -/
theorem Indented.indentLen_eq {indent rest : List Char} (h : Indented line indent rest) :
    indentLen line = byteLen indent ∧ line.drop (byteLen indent) = rest := by
  obtain ⟨rfl, hblank, hstops⟩ := h
  have hlen : indentLen (indent ++ rest) = indent.length := by
    refine runLen_append ?_ ?_
    · intro c hc
      simpa using hblank c hc
    · intro c hc
      simpa using hstops c hc
  have hbytes := byteLen_run indent_size (indent ++ rest)
  rw [show runLen _ (indent ++ rest) = indent.length from hlen, List.take_left] at hbytes
  exact ⟨hlen.trans hbytes.symm, by rw [hbytes, List.drop_left]⟩

/-- a line is read as an ATX heading: an indent, exactly so many number signs, and the content behind another indent -/
def IsAtx (level : Nat) (line : List Char) (parts : Atx) : Prop :=
  ∃ indent gap content after, Indented line indent (List.replicate level '#' ++ after) ∧ after.head? ≠ some '#' ∧
    Indented after gap content ∧
    parts = ⟨⟨byteLen indent, byteLen indent + level⟩, byteLen indent + level + byteLen gap⟩

theorem atx?_eq_some {level : Nat} (hl : 0 < level) {parts : Atx} :
    atx? line level = some parts ↔ IsAtx level line parts := by
  constructor
  · intro h
    unfold atx? at h
    simp only at h
    split_ifs at h with hlevel
    obtain ⟨-, hrun⟩ := not_or.1 hlevel
    rw [not_not] at hrun
    obtain rfl := Option.some.inj h
    have hindent := indented_drop line
    have hgap := indented_drop ((line.drop (indentLen line)).drop level)
    have hafter : ((line.drop (indentLen line)).drop level).head? ≠ some '#' := by
      rw [← hrun]
      exact head?_drop_countRun '#' _
    have hsplit : line.drop (indentLen line) = List.replicate level '#' ++ (line.drop (indentLen line)).drop level := by
      have := replicate_append_drop '#' (line.drop (indentLen line))
      rw [hrun] at this
      exact this.symm
    obtain ⟨hlen, -⟩ := hindent.indentLen_eq
    obtain ⟨hlen', -⟩ := hgap.indentLen_eq
    rw [hrun]
    refine ⟨_, _, _, _, hsplit ▸ hindent, hafter, hgap, ?_⟩
    rw [← hlen, ← hlen']
  · rintro ⟨indent, gap, content, after, hindent, hafter, hgap, rfl⟩
    obtain ⟨hlen, hdrop⟩ := hindent.indentLen_eq
    obtain ⟨hlen', -⟩ := hgap.indentLen_eq
    have hrun := countRun_replicate_append level hafter
    simp only [atx?, hdrop, hlen, hrun]
    rw [if_neg (by simpa using hl.ne'), List.drop_left' List.length_replicate, hlen']

/-- a line is read as an underline: an indent, a run of equals signs or of dashes, and only blanks behind it -/
def IsUnderline (line : List Char) (e : Extent) : Prop :=
  ∃ indent c len blanks, Indented line indent (List.replicate len c ++ blanks) ∧ (c = '=' ∨ c = '-') ∧ 0 < len ∧
    allBlank blanks = true ∧ e = ⟨byteLen indent, byteLen indent + len⟩

theorem underline?_eq_some {e : Extent} : underline? line = some e ↔ IsUnderline line e := by
  constructor
  · intro h
    simp only [underline?] at h
    split at h
    next c s hdrop =>
      split_ifs at h with hc
      obtain rfl := Option.some.inj h
      have hindent := indented_drop line
      obtain ⟨hlen, -⟩ := hindent.indentLen_eq
      rw [hdrop, ← replicate_append_drop c (c :: s)] at hindent
      refine ⟨_, c, _, _, hindent, hc.1, by simp [countRun, runLen], hc.2, ?_⟩
      rw [← hlen]
    next => simp at h
  · rintro ⟨indent, c, len, blanks, hindent, hc, hpos, hblanks, rfl⟩
    obtain ⟨hlen, hdrop⟩ := hindent.indentLen_eq
    have hblank : isBlank c = false := by rcases hc with rfl | rfl <;> decide
    have hstop : blanks.head? ≠ some c := by
      intro h
      have := List.all_eq_true.1 hblanks c (List.mem_of_mem_head? h)
      rw [hblank] at this
      exact Bool.false_ne_true this
    have hrun := countRun_replicate_append len hstop
    obtain ⟨k, rfl⟩ := Nat.exists_eq_succ_of_ne_zero hpos.ne'
    rw [List.replicate_succ, List.cons_append] at hdrop hrun
    have hrest : (c :: (List.replicate k c ++ blanks)).drop (k + 1) = blanks := by
      rw [List.drop_succ_cons, List.drop_left' List.length_replicate]
    simp only [underline?, hdrop, hlen, hrun]
    rw [hrest]
    exact if_pos ⟨hc, hblanks⟩

/-- the marker of a heading is as many number signs as its level, and its content begins at a place -/
theorem atx?_sound {level : Nat} {parts : Atx} (h : atx? line level = some parts) :
    slice? line parts.marker.start parts.marker.stop = some (List.replicate level '#') ∧
      IsPlace line parts.contentStart := by
  have hl : 0 < level := by
    rw [Nat.pos_iff_ne_zero]
    rintro rfl
    simp [atx?] at h
  obtain ⟨indent, gap, content, after, ⟨rfl, -, -⟩, -, ⟨rfl, -, -⟩, rfl⟩ := (atx?_eq_some hl).1 h
  have hlen : byteLen (List.replicate level '#') = level := byteLen_replicate_one rfl level
  refine ⟨slice?_eq_some.2 ⟨indent, gap ++ content, by simp, rfl, by simp only [hlen]⟩, ?_⟩
  exact ⟨indent ++ List.replicate level '#' ++ gap, content, by simp, by simp only [byteLen_append, hlen]⟩

/-- an underline is a run of equals signs or of dashes -/
theorem underline?_sound {e : Extent} (h : underline? line = some e) :
    ∃ c n, (c = '=' ∨ c = '-') ∧ 0 < n ∧ slice? line e.start e.stop = some (List.replicate n c) := by
  obtain ⟨indent, c, len, blanks, ⟨rfl, -, -⟩, hc, hpos, -, rfl⟩ := underline?_eq_some.1 h
  have hsize : c.utf8Size = 1 := by rcases hc with rfl | rfl <;> rfl
  have hlen : byteLen (List.replicate len c) = len := byteLen_replicate_one hsize len
  exact ⟨c, len, hc, hpos, slice?_eq_some.2 ⟨indent, blanks, by simp, rfl, by simp only [hlen]⟩⟩

end Heading

namespace Fence

/-- an opening fence is its marker, or begins with it and ends with the info string -/
theorem opening?_sound {info? : Option (List Char)} {e : Extent} (h : opening? line marker info? = some e) :
    slice? line e.start e.stop = some marker ∨
      ∃ info mid, info? = some info ∧ slice? line e.start e.stop = some (marker ++ mid ++ info) := by
  unfold opening? at h
  split_ifs at h with hm
  obtain ⟨start, hstart, rfl⟩ := Option.map_eq_some_iff.1 h
  obtain ⟨a, b, rfl, rfl⟩ := of_find? hstart
  simp only
  split
  next info rest hinfo hrest =>
    split
    next i hi =>
      obtain ⟨c, hc, hlen⟩ := dropBytes?_eq_some.1 hrest
      obtain ⟨-, rfl⟩ := append_inj_byteLen hc (by rw [byteLen_append, hlen])
      obtain ⟨mid, d, rfl, rfl⟩ := of_find? hi
      exact Or.inr ⟨_, mid, rfl, slice?_eq_some.2 ⟨a, d, by simp, rfl, by simp; omega⟩⟩
    next => exact Or.inl (slice?_append a marker b)
  next => exact Or.inl (slice?_append a marker b)

theorem opening?_slice {info? : Option (List Char)} {e : Extent} (h : opening? line marker info? = some e) :
    ∃ m, slice? line e.start e.stop = some m := by
  rcases opening?_sound h with hslice | ⟨info, mid, -, hslice⟩
  · exact ⟨_, hslice⟩
  · exact ⟨_, hslice⟩

/-- a run of a one-byte character right behind a stretch of one-byte characters -/
theorem slice?_run {p : Char → Bool} (hp : ∀ c, p c = true → c.utf8Size = 1) {c : Char} (hc : c.utf8Size = 1)
    (s : List Char) :
    slice? s (runLen p s) (runLen p s + countRun c (s.drop (runLen p s))) =
      some (List.replicate (countRun c (s.drop (runLen p s))) c) := by
  have hcut : s = s.take (runLen p s) ++ List.replicate (countRun c (s.drop (runLen p s))) c ++
      (s.drop (runLen p s)).drop (countRun c (s.drop (runLen p s))) := by
    rw [List.append_assoc, replicate_append_drop, List.take_append_drop]
  refine slice?_eq_some.2 ⟨_, _, hcut, byteLen_run hp s, ?_⟩
  rw [byteLen_replicate_one hc]

/-- a closing fence is a run of the marker's character -/
theorem closing?_sound {e : Extent} (h : closing? line marker = some e) :
    ∃ c n, marker.head? = some c ∧ 0 < n ∧ slice? line e.start e.stop = some (List.replicate n c) := by
  cases marker with
  | nil => simp [closing?] at h
  | cons c marker =>
    simp only [closing?] at h
    split_ifs at h with hc
    obtain rfl := Option.some.inj h
    have hpos := c.utf8Size_pos
    have hrun : 0 < countRun c (line.drop (countRun ' ' line)) := by
      have := hc.2.1
      rw [byteLen_cons] at this
      omega
    refine ⟨c, countRun c (line.drop (countRun ' ' line)), rfl, hrun, ?_⟩
    refine slice?_run (p := (· == ' ')) (fun d hd => ?_) hc.1 line
    obtain rfl : d = ' ' := by simpa using hd
    rfl

/-- a line is read as the closing fence of a marker: spaces, a run of its character that is at least as long, and only
blanks behind it -/
def ClosesAs (marker line : List Char) (e : Extent) : Prop :=
  ∃ c blanks, marker.head? = some c ∧ line = List.replicate e.start ' ' ++ (List.replicate e.len c ++ blanks) ∧
    e.start ≤ e.stop ∧ marker.length ≤ e.len ∧ allBlank blanks = true

/-- **A closing fence is read exactly where a line is one**, whatever the indent. -/
theorem closing?_eq_some {c : Char} {n : Nat} (hc : c = '`' ∨ c = '~') (hn : 0 < n) {e : Extent} :
    closing? line (List.replicate n c) = some e ↔ ClosesAs (List.replicate n c) line e := by
  obtain ⟨n, rfl⟩ := Nat.exists_eq_succ_of_ne_zero hn.ne'
  have hsize : c.utf8Size = 1 := by rcases hc with rfl | rfl <;> rfl
  have hblank : isBlank c = false := by rcases hc with rfl | rfl <;> decide
  have hspace : c ≠ ' ' := by rcases hc with rfl | rfl <;> decide
  have hlen : byteLen (List.replicate (n + 1) c) = n + 1 := byteLen_replicate_one hsize _
  rw [List.replicate_succ] at hlen ⊢
  constructor
  · intro h
    simp only [closing?] at h
    split_ifs at h with hrun
    obtain rfl := Option.some.inj h
    refine ⟨c, _, rfl, ?_, Nat.le_add_right _ _, ?_, hrun.2.2⟩
    · simp only [Extent.len, Nat.add_sub_cancel_left]
      rw [replicate_append_drop, replicate_append_drop]
    · simpa [Extent.len, hlen] using hrun.2.1
  · rintro ⟨c', blanks, hc', rfl, hle, hlong, hblanks⟩
    obtain rfl : c = c' := by simpa using hc'
    have hlong' : n + 1 ≤ e.len := by simpa using hlong
    -- neither run goes on behind itself
    have hhead : (List.replicate e.len c ++ blanks).head? ≠ some ' ' := by
      obtain ⟨k, hk⟩ := Nat.exists_eq_succ_of_ne_zero (Nat.ne_of_gt (Nat.lt_of_lt_of_le (Nat.succ_pos n) hlong'))
      simpa [hk, List.replicate_succ] using hspace
    have hstop : blanks.head? ≠ some c := by
      intro h
      have := List.all_eq_true.1 hblanks c (List.mem_of_mem_head? h)
      rw [hblank] at this
      exact Bool.false_ne_true this
    have hindent := countRun_replicate_append e.start hhead
    have hrun := countRun_replicate_append e.len hstop
    have hend : e.start + e.len = e.stop := by
      unfold Extent.len
      omega
    simp only [closing?, hindent, List.drop_left' List.length_replicate, hrun, hlen, hend]
    exact if_pos ⟨hsize, hlong', hblanks⟩

end Fence

end MarkVeil.Marker
