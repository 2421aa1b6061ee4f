/-
Links, images and autolinks are found where they stand.

`Parts.Reads` says what stands at the parts of a link or image on a line: an opener, a label, `](`, a target and `)`.
What the searches find reads so (`findLink?_sound`, `findImage?_sound`), and a link or image that stands where the
search begins is found (`findLink?_complete`, `findImage?_complete`). Both searches are `first?` over what can be read
at a place, so they answer with what stands at the least offset (`search_eq_some`).
Main result:
- `find_first`: a search finds something exactly if its grammar allows something from `start` on, and then it is the
  first such link or image, with the preferred label and each delimiter where its parts say.
-/
import MarkVeil.Proofs.Marker.LinkGrammar
import MarkVeil.Proofs.Text.First

namespace MarkVeil.Marker.Link

open MarkVeil.Text

variable {s line target opener : List Char} {start : Nat} {p q : Parts}

/-- `opener`, a label, `](`, a target and `)` stand at the parts -/
def Parts.Reads (p : Parts) (opener line : List Char) : Prop :=
  ∃ a label target b, line = a ++ opener ++ label ++ ']' :: '(' :: (target ++ ')' :: b) ∧
    p = ⟨⟨byteLen a, byteLen a + byteLen opener + byteLen label + 2 + byteLen target + 1⟩,
      ⟨byteLen a + byteLen opener, byteLen a + byteLen opener + byteLen label⟩⟩

/-! ## What stands at the front -/

theorem link?_sound (h : link? s = some p) : p.Reads ['['] s := by
  obtain ⟨label, target, rest, rfl, -, -, -, rfl⟩ := link?_eq_some.1 h
  refine ⟨[], label, target, rest, rfl, ?_⟩
  have hopen : byteLen ['['] = 1 := rfl
  simp only [hopen, byteLen_nil, Parts.mk.injEq, Extent.mk.injEq, true_and, and_true, Nat.zero_add]
  omega

theorem image?_sound (h : image? s = some p) : p.Reads ['!', '['] s := by
  obtain ⟨alt, target, rest, rfl, -, -, rfl⟩ := image?_eq_some.1 h
  refine ⟨[], alt, target, rest, rfl, ?_⟩
  have hopen : byteLen ['!', '['] = 2 := rfl
  simp only [hopen, byteLen_nil, Parts.mk.injEq, Extent.mk.injEq, true_and, and_true, Nat.zero_add]
  omega

/-- parts of the rest of a line, moved to the line -/
theorem Parts.Reads.shift (h : p.Reads opener s) (a : List Char) : (p.shift (byteLen a)).Reads opener (a ++ s) := by
  obtain ⟨c, label, target, b, rfl, rfl⟩ := h
  refine ⟨a ++ c, label, target, b, by simp, ?_⟩
  simp only [Parts.shift, Extent.shift, byteLen_append, Nat.add_assoc]

/-! ## Searches -/

/-- what a search reads at a place of a line: nothing before `start`, and nothing behind text that is not free -/
def readAt (free : List Char → Bool) (front? : List Char → Option Parts) (start : Nat) (before rest : List Char) :
    Option Parts :=
  if start ≤ byteLen before ∧ free before then (front? rest).map (Parts.shift (byteLen before)) else none

/-- a link is no link behind an exclamation mark -/
def notBang (before : List Char) : Bool := before.getLast? != some '!'

theorem findLinkFrom?_eq_first? (a s : List Char) :
    findLinkFrom? start a.getLast? (byteLen a) s = first? (readAt notBang link? start) a s := by
  induction s generalizing a with
  | nil => simp [findLinkFrom?, first?, readAt, link?]
  | cons c s ih =>
    have hnext := ih (a ++ [c])
    rw [List.getLast?_concat, byteLen_append, byteLen_cons, byteLen_nil, Nat.add_zero] at hnext
    rw [findLinkFrom?, first?, ← hnext]
    by_cases hfree : start ≤ byteLen a ∧ a.getLast? ≠ some '!'
    · rw [readAt, if_pos hfree, if_pos ⟨hfree.1, by simpa [notBang] using hfree.2⟩]
      cases link? (c :: s) <;> rfl
    · rw [readAt, if_neg hfree, if_neg fun h => hfree ⟨h.1, by simpa [notBang] using h.2⟩]
      rfl

theorem findImageFrom?_eq_first? (a s : List Char) :
    findImageFrom? start (byteLen a) s = first? (readAt (fun _ => true) image? start) a s := by
  induction s generalizing a with
  | nil => simp [findImageFrom?, first?, readAt, image?]
  | cons c s ih =>
    have hnext := ih (a ++ [c])
    rw [byteLen_append, byteLen_cons, byteLen_nil, Nat.add_zero] at hnext
    rw [findImageFrom?, first?, ← hnext]
    by_cases hstart : start ≤ byteLen a
    · rw [readAt, if_pos hstart, if_pos ⟨hstart, rfl⟩]
      cases image? (c :: s) <;> rfl
    · rw [readAt, if_neg hstart, if_neg fun h => hstart h.1]
      rfl

/-- something can be read at an offset of a line -/
def StandsAt (free : List Char → Bool) (front? : List Char → Option Parts) (line : List Char) (p : Nat) : Prop :=
  ∃ a t q, line = a ++ t ∧ byteLen a = p ∧ free a = true ∧ front? t = some q

section Search

variable {free : List Char → Bool} {front? : List Char → Option Parts}

theorem search_eq_none : first? (readAt free front? start) [] line = none ↔
    ∀ p, start ≤ p → ¬ StandsAt free front? line p := by
  simp only [first?_eq_none, List.nil_append, readAt]
  constructor
  · rintro h p hle ⟨a, t, q, rfl, rfl, hfree, hq⟩
    have := h a t rfl
    rw [if_pos ⟨hle, hfree⟩, hq] at this
    simp at this
  · rintro h a t rfl
    split_ifs with hread
    · cases hq : front? t with
      | none => rfl
      | some q => exact absurd ⟨a, t, q, rfl, rfl, hread.2, hq⟩ (h _ hread.1)
    · rfl

/-- a search answers with what stands at the least offset where anything stands -/
theorem search_eq_some (hfront : ∀ t q, front? t = some q → q.full.start = 0) :
    first? (readAt free front? start) [] line = some p ↔ Least (StandsAt free front? line) start p.full.start ∧
      ∃ a t q, line = a ++ t ∧ front? t = some q ∧ p = q.shift (byteLen a) := by
  have hstart : ∀ a t q, front? t = some q → (q.shift (byteLen a)).full.start = byteLen a := by
    intro a t q hq
    simp [Parts.shift, Extent.shift, hfront t q hq]
  rw [first?_eq_some]
  simp only [List.nil_append, readAt]
  constructor
  · rintro ⟨a, t, rfl, hread, hbefore⟩
    split_ifs at hread with hfree
    obtain ⟨q, hq, rfl⟩ := Option.map_eq_some_iff.1 hread
    refine ⟨?_, a, t, q, rfl, hq, rfl⟩
    rw [hstart a t q hq]
    refine ⟨⟨a, t, q, rfl, rfl, hfree.2, hq⟩, hfree.1, ?_⟩
    rintro p ⟨c, d, r, hcut, rfl, hc, hr⟩ hle
    by_contra hlt
    have := hbefore c d hcut (Nat.lt_of_not_le hlt)
    rw [if_pos ⟨hle, hc⟩, hr] at this
    simp at this
  · rintro ⟨hleast, a, t, q, rfl, hq, rfl⟩
    rw [hstart a t q hq] at hleast
    obtain ⟨c, d, r, hcut, hc, hfree, -⟩ := hleast.stands
    obtain ⟨rfl, rfl⟩ := append_inj_byteLen hcut hc.symm
    refine ⟨a, t, rfl, by rw [if_pos ⟨hleast.le, hfree⟩, hq, Option.map_some], ?_⟩
    intro c d hcut hlt
    split_ifs with hread
    · cases hr : front? d with
      | none => rfl
      | some r =>
        have := hleast.least _ ⟨c, d, r, hcut, rfl, hread.2, hr⟩ hread.1
        omega
    · rfl

end Search

theorem link?_start (h : link? s = some p) : p.full.start = 0 := by
  obtain ⟨label, target, rest, -, -, -, -, rfl⟩ := link?_eq_some.1 h
  rfl

theorem image?_start (h : image? s = some p) : p.full.start = 0 := by
  obtain ⟨alt, target, rest, -, -, -, rfl⟩ := image?_eq_some.1 h
  rfl

theorem findLink?_eq_none :
    findLink? line start = none ↔ ∀ p, start ≤ p → ¬ StandsAt notBang link? line p := by
  rw [← search_eq_none, ← findLinkFrom?_eq_first?]
  rfl

theorem findLink?_eq_some : findLink? line start = some p ↔ Least (StandsAt notBang link? line) start p.full.start ∧
    ∃ a t q, line = a ++ t ∧ link? t = some q ∧ p = q.shift (byteLen a) := by
  rw [← search_eq_some fun _ _ => link?_start, ← findLinkFrom?_eq_first?]
  rfl

theorem findImage?_eq_none :
    findImage? line start = none ↔ ∀ p, start ≤ p → ¬ StandsAt (fun _ => true) image? line p := by
  rw [← search_eq_none, ← findImageFrom?_eq_first?]
  rfl

theorem findImage?_eq_some :
    findImage? line start = some p ↔ Least (StandsAt (fun _ => true) image? line) start p.full.start ∧
      ∃ a t q, line = a ++ t ∧ image? t = some q ∧ p = q.shift (byteLen a) := by
  rw [← search_eq_some fun _ _ => image?_start, ← findImageFrom?_eq_first?]
  rfl

/-! ## What is found -/

theorem findLink?_sound (h : findLink? line start = some p) : p.Reads ['['] line := by
  obtain ⟨-, a, t, q, rfl, hq, rfl⟩ := findLink?_eq_some.1 h
  exact (link?_sound hq).shift a

theorem findImage?_sound (h : findImage? line start = some p) : p.Reads ['!', '['] line := by
  obtain ⟨-, a, t, q, rfl, hq, rfl⟩ := findImage?_eq_some.1 h
  exact (image?_sound hq).shift a

theorem findAutolink?_sound {e : Extent} (h : findAutolink? line start = some e) :
    ∃ a url b, line = a ++ '<' :: (url ++ '>' :: b) ∧ e = ⟨byteLen a, byteLen a + 1 + byteLen url + 1⟩ := by
  obtain ⟨rest, hrest, h⟩ := Option.bind_eq_some_iff.1 h
  obtain ⟨i, hi, h⟩ := Option.bind_eq_some_iff.1 h
  obtain ⟨j, hj, rfl⟩ := Option.map_eq_some_iff.1 h
  obtain ⟨tail, htail, hj⟩ := Option.bind_eq_some_iff.1 hj
  obtain ⟨a, rfl, rfl⟩ := dropBytes?_eq_some.1 hrest
  obtain ⟨b, c, rfl, rfl⟩ := of_find? hi
  obtain ⟨d, hd, hlen⟩ := dropBytes?_eq_some.1 htail
  have hsize : byteLen (b ++ ['<']) = byteLen b + 1 := by rw [byteLen_append]; rfl
  obtain ⟨-, rfl⟩ := append_inj_byteLen hd (by rw [hsize, hlen])
  obtain ⟨url, e, rfl, rfl⟩ := of_find? hj
  exact ⟨a ++ b, url, e, by simp, by rw [byteLen_append]⟩

/-! ## Where the search begins -/

theorem findLink?_start (h : findLink? line start = some p) : start ≤ p.full.start := (findLink?_eq_some.1 h).1.le

theorem findImage?_start (h : findImage? line start = some p) : start ≤ p.full.start := (findImage?_eq_some.1 h).1.le

theorem findAutolink?_start {e : Extent} (h : findAutolink? line start = some e) : start ≤ e.start := by
  obtain ⟨rest, -, h⟩ := Option.bind_eq_some_iff.1 h
  obtain ⟨i, -, h⟩ := Option.bind_eq_some_iff.1 h
  obtain ⟨j, -, rfl⟩ := Option.map_eq_some_iff.1 h
  exact Nat.le_add_right _ _

/-! ## What stands at the parts -/

section Reads

variable (h : p.Reads opener line)
include h

theorem Parts.Reads.slice_opener : slice? line p.full.start p.label.start = some opener := by
  obtain ⟨a, label, target, b, rfl, rfl⟩ := h
  exact slice?_eq_some.2 ⟨a, label ++ ']' :: '(' :: (target ++ ')' :: b), by simp, rfl, rfl⟩

theorem Parts.Reads.slice_label : ∃ label, slice? line p.label.start p.label.stop = some label := by
  obtain ⟨a, label, target, b, rfl, rfl⟩ := h
  exact ⟨label, slice?_eq_some.2 ⟨a ++ opener, ']' :: '(' :: (target ++ ')' :: b), by simp, by simp, rfl⟩⟩

theorem Parts.Reads.slice_closeBracket : slice? line p.closeBracket (p.closeBracket + 1) = some [']'] := by
  obtain ⟨a, label, target, b, rfl, rfl⟩ := h
  refine slice?_eq_some.2 ⟨a ++ opener ++ label, '(' :: (target ++ ')' :: b), by simp, ?_, rfl⟩
  simp [Parts.closeBracket, Nat.add_assoc]

theorem Parts.Reads.slice_openParen : slice? line p.openParen (p.openParen + 1) = some ['('] := by
  obtain ⟨a, label, target, b, rfl, rfl⟩ := h
  refine slice?_eq_some.2 ⟨a ++ opener ++ label ++ [']'], target ++ ')' :: b, by simp, ?_, rfl⟩
  have hsize : ']'.utf8Size = 1 := rfl
  simp [Parts.openParen, Nat.add_assoc, hsize]

theorem Parts.Reads.slice_closeParen : slice? line p.closeParen p.full.stop = some [')'] := by
  obtain ⟨a, label, target, b, rfl, rfl⟩ := h
  refine slice?_eq_some.2 ⟨a ++ opener ++ label ++ ']' :: '(' :: target, b, by simp, ?_, ?_⟩
  · have h2 : ']'.utf8Size = 1 := rfl
    have h3 : '('.utf8Size = 1 := rfl
    simp only [byteLen_append, byteLen_cons, h2, h3, Parts.closeParen]
    omega
  · have h4 : ')'.utf8Size = 1 := rfl
    simp only [byteLen_cons, byteLen_nil, h4, Parts.closeParen]
    omega

/-- the parts follow one another, and the link ends where its target closes -/
theorem Parts.Reads.order (ho : opener ≠ []) : p.full.start < p.label.start ∧ p.label.start ≤ p.closeBracket ∧
    p.closeBracket + 1 ≤ p.openParen ∧ p.openParen + 1 ≤ p.closeParen ∧ p.closeParen < p.full.stop ∧
    p.full.stop ≤ byteLen line := by
  have hopener := byteLen_pos ho
  obtain ⟨a, label, target, b, rfl, rfl⟩ := h
  have hlen := byteLen_close target b
  simp only [Parts.closeBracket, Parts.openParen, Parts.closeParen, byteLen_append, hlen]
  omega

end Reads

/-! ## What stands where the search begins -/

/-- a link where the search begins is found, if no exclamation mark stands before it -/
theorem findLink?_complete (a : List Char) (hbefore : a.getLast? ≠ some '!') (h : link? s = some p) :
    findLink? (a ++ s) (byteLen a) = some (p.shift (byteLen a)) := by
  have hstart : (p.shift (byteLen a)).full.start = byteLen a := by simp [Parts.shift, Extent.shift, link?_start h]
  refine findLink?_eq_some.2 ⟨?_, a, s, p, rfl, h, rfl⟩
  rw [hstart]
  exact least_start ⟨a, s, p, rfl, rfl, by simpa [notBang] using hbefore, h⟩

/-- an image where the search begins is found -/
theorem findImage?_complete (a : List Char) (h : image? s = some p) :
    findImage? (a ++ s) (byteLen a) = some (p.shift (byteLen a)) := by
  have hstart : (p.shift (byteLen a)).full.start = byteLen a := by simp [Parts.shift, Extent.shift, image?_start h]
  refine findImage?_eq_some.2 ⟨?_, a, s, p, rfl, h, rfl⟩
  rw [hstart]
  exact least_start ⟨a, s, p, rfl, rfl, rfl, h⟩

/-- an autolink where the search begins is found -/
theorem findAutolink?_complete {url : List Char} (a : List Char) (hurl : '>' ∉ url) (b : List Char) :
    findAutolink? (a ++ '<' :: (url ++ '>' :: b)) (byteLen a) =
      some ⟨byteLen a, byteLen a + 1 + byteLen url + 1⟩ := by
  have hopen : find? ['<'] ('<' :: (url ++ '>' :: b)) = some 0 := find?_prefix ['<'] _
  have hdrop : dropBytes? ('<' :: (url ++ '>' :: b)) (0 + 1) = some (url ++ '>' :: b) := dropBytes?_append ['<'] _
  rw [findAutolink?, dropBytes?_append, Option.bind_some, hopen, Option.bind_some, hdrop, Option.bind_some,
    find?_single hurl, Option.map_some, Nat.add_zero]

/-! ## The first link and the first image -/

/-- a link can be read at an offset of a line: `[`, a label, `](`, a target and `)`, and no exclamation mark before -/
def LinkAt (line : List Char) (p : Nat) : Prop :=
  ∃ a label target rest, line = a ++ '[' :: (label ++ ']' :: '(' :: (target ++ ')' :: rest)) ∧ byteLen a = p ∧
    a.getLast? ≠ some '!' ∧ label ≠ [] ∧ Items label ∧ IsTarget target

/-- an image stands at an offset of a line: `![`, an alternative text, `](`, a target and `)` -/
def ImageAt (line : List Char) (p : Nat) : Prop :=
  ∃ a alt target rest, line = a ++ '!' :: '[' :: (alt ++ ']' :: '(' :: (target ++ ')' :: rest)) ∧ byteLen a = p ∧
    ']' ∉ alt ∧ IsTarget target

theorem standsAt_link (line : List Char) : StandsAt notBang link? line = LinkAt line := by
  funext p
  refine propext ⟨?_, ?_⟩
  · rintro ⟨a, t, q, rfl, rfl, hfree, hq⟩
    obtain ⟨label, target, rest, rfl, hne, hl, ht⟩ := exists_link?.1 ⟨q, hq⟩
    exact ⟨a, label, target, rest, rfl, rfl, by simpa [notBang] using hfree, hne, hl, ht⟩
  · rintro ⟨a, label, target, rest, rfl, rfl, hfree, hne, hl, ht⟩
    obtain ⟨q, hq⟩ := exists_link?.2 ⟨label, target, rest, rfl, hne, hl, ht⟩
    exact ⟨a, _, q, rfl, rfl, by simpa [notBang] using hfree, hq⟩

theorem standsAt_image (line : List Char) : StandsAt (fun _ => true) image? line = ImageAt line := by
  funext p
  refine propext ⟨?_, ?_⟩
  · rintro ⟨a, t, q, rfl, rfl, -, hq⟩
    obtain ⟨alt, target, rest, rfl, ha, ht, -⟩ := image?_eq_some.1 hq
    exact ⟨a, alt, target, rest, rfl, rfl, ha, ht⟩
  · rintro ⟨a, alt, target, rest, rfl, rfl, ha, ht⟩
    exact ⟨a, _, _, rfl, rfl, rfl, image?_complete ha ht.2 ht.1 rest⟩

/-- the delimiters behind the label of a link or image stand at its parts, with a target between the parentheses -/
structure Parts.Delimited (p : Parts) (line : List Char) : Prop where
  closeBracket : slice? line p.closeBracket (p.closeBracket + 1) = some [']']
  openParen : slice? line p.openParen (p.openParen + 1) = some ['(']
  target : ∃ target, IsTarget target ∧ slice? line (p.openParen + 1) p.closeParen = some target
  closeParen : slice? line p.closeParen p.full.stop = some [')']

/-- what the first link from `start` on is -/
structure FirstLink (line : List Char) (start : Nat) (p : Parts) : Prop where
  first : Least (LinkAt line) start p.full.start
  label_start : p.label.start = p.full.start + 1
  /-- the label is the reading that takes an image wherever one leads to a close -/
  label : ∃ a label rest, line = a ++ (label ++ rest) ∧ p.label = ⟨byteLen a, byteLen a + byteLen label⟩ ∧
    Prefers label rest
  delimited : p.Delimited line

/-- what the first image from `start` on is -/
structure FirstImage (line : List Char) (start : Nat) (p : Parts) : Prop where
  first : Least (ImageAt line) start p.full.start
  label_start : p.label.start = p.full.start + 2
  /-- the label runs up to the next closing bracket -/
  label : ∃ a alt rest, line = a ++ (alt ++ ']' :: rest) ∧ p.label = ⟨byteLen a, byteLen a + byteLen alt⟩ ∧ ']' ∉ alt
  delimited : p.Delimited line

theorem Parts.Delimited.of_cut (a opener label b : List Char)
    (hline : line = a ++ opener ++ label ++ ']' :: '(' :: (target ++ ')' :: b)) (ht : IsTarget target)
    (hp : p = ⟨⟨byteLen a, byteLen a + byteLen opener + byteLen label + 2 + byteLen target + 1⟩,
      ⟨byteLen a + byteLen opener, byteLen a + byteLen opener + byteLen label⟩⟩) : p.Delimited line := by
  have hreads : p.Reads opener line := ⟨a, label, target, b, hline, hp⟩
  refine ⟨hreads.slice_closeBracket, hreads.slice_openParen, ⟨target, ht, ?_⟩, hreads.slice_closeParen⟩
  subst hp hline
  refine slice?_eq_some.2 ⟨a ++ opener ++ label ++ [']', '('], ')' :: b, by simp, ?_, ?_⟩
  · simp only [byteLen_append]
    rfl
  · simp only [Parts.closeParen, Parts.openParen]
    omega

/-- the target runs up to the next closing parenthesis -/
theorem Parts.Delimited.cut (h : p.Delimited line) : ∃ a target b, line = a ++ (target ++ ')' :: b) ∧
    byteLen a = p.openParen + 1 ∧ ')' ∉ target ∧ p.full.stop = byteLen a + byteLen target + 1 := by
  obtain ⟨target, ht, hslice⟩ := h.target
  obtain ⟨a, b, hline, ha, hstop⟩ := slice?_eq_some.1 hslice
  obtain ⟨c, d, hline', hc, hfull⟩ := slice?_eq_some.1 h.closeParen
  have hcut : (a ++ target) ++ b = c ++ (')' :: d) := by rw [← hline, hline', List.append_assoc]; rfl
  obtain ⟨rfl, rfl⟩ := append_inj_byteLen hcut (by rw [byteLen_append, ha, hc, hstop])
  exact ⟨a, target, d, by rw [hline, List.append_assoc], ha, ht.2, by rw [hfull, hstop, ha]; rfl⟩

/-- where a link or image begins and its label determine where it ends -/
theorem Parts.Delimited.unique (hp : p.Delimited line) (hq : q.Delimited line) (hstart : p.full.start = q.full.start)
    (hlabel : p.label = q.label) : p = q := by
  obtain ⟨a, target, b, hline, ha, ht, hstop⟩ := hp.cut
  obtain ⟨a', target', b', hline', ha', ht', hstop'⟩ := hq.cut
  have hopen : byteLen a = byteLen a' := by rw [ha, ha', Parts.openParen, Parts.openParen, hlabel]
  obtain ⟨rfl, hrest⟩ := append_inj_byteLen (hline.symm.trans hline') hopen
  obtain rfl := cut_unique ht ht' hrest
  obtain ⟨⟨start, stop⟩, label⟩ := p
  obtain ⟨⟨start', stop'⟩, label'⟩ := q
  obtain rfl : start = start' := hstart
  obtain rfl : label = label' := hlabel
  obtain rfl : stop = stop' := hstop.trans hstop'.symm
  rfl

theorem FirstLink.unique (hp : FirstLink line start p) (hq : FirstLink line start q) : p = q := by
  have hstart := hp.first.unique hq.first
  obtain ⟨a, label, rest, hline, hlabel, hread⟩ := hp.label
  obtain ⟨a', label', rest', hline', hlabel', hread'⟩ := hq.label
  have hlen : p.label.start = q.label.start := by rw [hp.label_start, hq.label_start, hstart]
  rw [hlabel, hlabel'] at hlen
  obtain ⟨rfl, hcut⟩ := append_inj_byteLen (hline.symm.trans hline') hlen
  obtain ⟨rfl, -⟩ := hread.unique hread' hcut
  exact hp.delimited.unique hq.delimited hstart (hlabel.trans hlabel'.symm)

theorem FirstImage.unique (hp : FirstImage line start p) (hq : FirstImage line start q) : p = q := by
  have hstart := hp.first.unique hq.first
  obtain ⟨a, alt, rest, hline, hlabel, halt⟩ := hp.label
  obtain ⟨a', alt', rest', hline', hlabel', halt'⟩ := hq.label
  have hlen : p.label.start = q.label.start := by rw [hp.label_start, hq.label_start, hstart]
  rw [hlabel, hlabel'] at hlen
  obtain ⟨rfl, hcut⟩ := append_inj_byteLen (hline.symm.trans hline') hlen
  obtain rfl := cut_unique halt halt' hcut
  exact hp.delimited.unique hq.delimited hstart (hlabel.trans hlabel'.symm)

theorem findLink?_first (h : findLink? line start = some p) : FirstLink line start p := by
  obtain ⟨hfirst, a, t, q, rfl, hq, rfl⟩ := findLink?_eq_some.1 h
  obtain ⟨label, target, rest, rfl, -, hread, ht, rfl⟩ := link?_eq_some.1 hq
  have hopen : byteLen ['['] = 1 := rfl
  refine ⟨standsAt_link _ ▸ hfirst, rfl, ⟨a ++ ['['], label, ']' :: '(' :: (target ++ ')' :: rest),
    by simp, ?_, hread⟩, ?_⟩
  · simp only [Parts.shift, Extent.shift, byteLen_append, hopen, Nat.add_assoc]
  · refine .of_cut a ['['] label rest (by simp) ht ?_
    simp only [Parts.shift, Extent.shift, hopen, Parts.mk.injEq, Extent.mk.injEq, Nat.add_zero, true_and]
    omega

theorem findImage?_first (h : findImage? line start = some p) : FirstImage line start p := by
  obtain ⟨hfirst, a, t, q, rfl, hq, rfl⟩ := findImage?_eq_some.1 h
  obtain ⟨alt, target, rest, rfl, ha, ht, rfl⟩ := image?_eq_some.1 hq
  have hopen : byteLen ['!', '['] = 2 := rfl
  refine ⟨standsAt_image _ ▸ hfirst, rfl, ⟨a ++ ['!', '['], alt, '(' :: (target ++ ')' :: rest),
    by simp, ?_, ha⟩, ?_⟩
  · simp only [Parts.shift, Extent.shift, byteLen_append, hopen, Nat.add_assoc]
  · refine .of_cut a ['!', '['] alt rest (by simp) ht ?_
    simp only [Parts.shift, Extent.shift, hopen, Parts.mk.injEq, Extent.mk.injEq, Nat.add_zero, true_and]
    omega

/-- **The searches for links and images follow their grammars.** They find something exactly if something stands at
`start` or behind it, and then it is what stands first, with the delimiters where its parts say. -/
theorem find_first (line : List Char) (start : Nat) :
    ((∃ p, findLink? line start = some p) ↔ ∃ p, start ≤ p ∧ LinkAt line p) ∧
      (∀ p, findLink? line start = some p ↔ FirstLink line start p) ∧
      ((∃ p, findImage? line start = some p) ↔ ∃ p, start ≤ p ∧ ImageAt line p) ∧
      ∀ p, findImage? line start = some p ↔ FirstImage line start p := by
  have hlink : (∃ p, findLink? line start = some p) ↔ ∃ p, start ≤ p ∧ LinkAt line p := by
    rw [← Option.ne_none_iff_exists', Ne, findLink?_eq_none, standsAt_link]
    simp
  have himage : (∃ p, findImage? line start = some p) ↔ ∃ p, start ≤ p ∧ ImageAt line p := by
    rw [← Option.ne_none_iff_exists', Ne, findImage?_eq_none, standsAt_image]
    simp
  refine ⟨hlink, fun p => ⟨findLink?_first, fun h => ?_⟩, himage, fun p => ⟨findImage?_first, fun h => ?_⟩⟩
  · obtain ⟨q, hq⟩ := hlink.2 ⟨_, h.first.le, h.first.stands⟩
    rw [hq, h.unique (findLink?_first hq)]
  · obtain ⟨q, hq⟩ := himage.2 ⟨_, h.first.le, h.first.stands⟩
    rw [hq, h.unique (findImage?_first hq)]

end MarkVeil.Marker.Link
