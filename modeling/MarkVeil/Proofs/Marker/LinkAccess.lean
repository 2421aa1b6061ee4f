/-
Links, images and autolinks are found without reading outside the line.

The search for a link looks for what reads as one, then at the byte before it, and goes on behind the bracket where that
byte is an exclamation mark. Main results: on every line, from every offset,
- `findLink_eq`, `findImage_eq`: the searches misread nothing and answer as those that run;
- `findAutolink_eq`: so does the search for an autolink, from a place of the line on.
-/
import MarkVeil.Proofs.Marker.Link
import MarkVeil.Proofs.Text.Access

namespace MarkVeil.Marker.Link.Checked

open MarkVeil.Text MarkVeil.Text.Checked

variable {line : List Char} {i j start : Nat} {p : Parts}

def bang : UInt8 := '!'.toUInt8

/-- what reads first from an offset of a line on; from past its end nothing may be looked for -/
def capture (front? : List Char → Option Parts) (line : List Char) (i : Nat) : Access (Option Parts) :=
  if i ≤ byteLen line then .ok (first? (readAt (fun _ => true) front? i) [] line)
  else .error (.slice i (byteLen line))

theorem capture_eq (front? : List Char → Option Parts) (h : i ≤ byteLen line) :
    capture front? line i = .ok (first? (readAt (fun _ => true) front? i) [] line) := if_pos h

theorem capture_le (h : capture link? line i = .ok (some p)) : i ≤ p.full.start := by
  unfold capture at h
  split_ifs at h
  rw [Except.ok.injEq, search_eq_some fun _ _ => link?_start] at h
  exact h.1.le

/-- `findLink?` as a loop, with the offset before a match and the byte there checked -/
def findLink (line : List Char) (i : Nat) : Access (Option Parts) :=
  if i ≤ byteLen line then
    match _hcapture : capture link? line i with
    | .error e => .error e
    | .ok none => .ok none
    | .ok (some p) =>
      if 0 < p.full.start then do
        let before ← below p.full.start 1
        let x ← byteAt (utf8 line) before
        if x = bang then findLink line (p.full.start + 1) else return some p
      else .ok (some p)
  else .ok none
termination_by byteLen line + 1 - i
decreasing_by
  have hle := capture_le _hcapture
  omega

theorem findLink_end (h : byteLen line < i) : findLink line i = .ok none := by
  rw [findLink, if_neg (by omega)]

theorem findLink_none (hi : i ≤ byteLen line) (h : capture link? line i = .ok none) : findLink line i = .ok none := by
  rw [findLink, if_pos hi]
  split
  next e he => simp [h] at he
  next => rfl
  next p hp => simp [h] at hp

/-- a link that has something before it is looked at there -/
theorem findLink_some (hi : i ≤ byteLen line) (h : capture link? line i = .ok (some p)) : findLink line i =
    if 0 < p.full.start then do
      let before ← below p.full.start 1
      let x ← byteAt (utf8 line) before
      if x = bang then findLink line (p.full.start + 1) else return some p
    else .ok (some p) := by
  rw [findLink, if_pos hi]
  split
  next e he => simp [h] at he
  next hnone => simp [h] at hnone
  next q hq =>
    rw [h, Except.ok.injEq, Option.some.injEq] at hq
    rw [hq]

/-- `findImage?`, with the offset it begins at checked -/
def findImage (line : List Char) (i : Nat) : Access (Option Parts) :=
  if byteLen line < i then .ok none else capture image? line i

/-- `findAutolink?`, with the slice from the offset and that behind the bracket checked -/
def findAutolink (line : List Char) (start : Nat) : Access (Option Extent) := do
  let rest ← slice line start (byteLen line)
  match find? ['<'] rest with
  | none => return none
  | some i =>
    let behind ← slice line (start + i + 1) (byteLen line)
    return (find? ['>'] behind).map fun j => ⟨start + i, start + i + 1 + j + 1⟩

/-- offset of the parenthesis that closes the target, checked as one byte before the end -/
def closeParen (p : Parts) : Access Nat := below p.full.stop 1

/-! ## Links -/

/-- a link reads at an offset, be it the tail of an image or not -/
def ReadsAt (line : List Char) (p : Nat) : Prop := StandsAt (fun _ => true) link? line p

/-- where no link stands before an offset, the search may as well begin there -/
theorem findLink?_later (hij : i ≤ j) (h : ∀ q, i ≤ q → StandsAt notBang link? line q → j ≤ q) :
    findLink? line i = findLink? line j := by
  have hleast : ∀ q, Least (StandsAt notBang link? line) i q ↔ Least (StandsAt notBang link? line) j q := by
    intro q
    constructor
    · intro hq
      exact ⟨hq.stands, h q hq.le hq.stands, fun r hr hle => hq.least r hr (hij.trans hle)⟩
    · intro hq
      exact ⟨hq.stands, hij.trans hq.le, fun r hr hle => hq.least r hr (h r hle hr)⟩
  ext p
  rw [findLink?_eq_some, findLink?_eq_some, hleast]

/-- a link that nothing reads before is found, unless it is the tail of an image -/
theorem findLink?_capture {a t : List Char} {q : Parts} (hq : link? t = some q)
    (hleast : Least (ReadsAt (a ++ t)) i (byteLen a)) :
    findLink? (a ++ t) i =
      if a.getLast? = some '!' then findLink? (a ++ t) (byteLen a + 1) else some (q.shift (byteLen a)) := by
  have hread : ∀ r, StandsAt notBang link? (a ++ t) r → ReadsAt (a ++ t) r := by
    rintro r ⟨c, d, x, hcut, hc, -, hx⟩
    exact ⟨c, d, x, hcut, hc, rfl, hx⟩
  split_ifs with hbang
  · refine findLink?_later (Nat.le_add_right_of_le hleast.le) ?_
    intro r hle hr
    have hlater := hleast.least r (hread r hr) hle
    refine Nat.lt_of_le_of_ne hlater ?_
    rintro rfl
    obtain ⟨c, d, x, hcut, hc, hfree, -⟩ := hr
    obtain ⟨rfl, -⟩ := append_inj_byteLen hcut hc.symm
    simp [notBang, hbang] at hfree
  · have hstart : (q.shift (byteLen a)).full.start = byteLen a := by simp [Parts.shift, Extent.shift, link?_start hq]
    refine findLink?_eq_some.2 ⟨?_, a, t, q, rfl, hq, rfl⟩
    rw [hstart]
    exact ⟨⟨a, t, q, rfl, rfl, by simpa [notBang] using hbang, hq⟩, hleast.le,
      fun r hr hle => hleast.least r (hread r hr) hle⟩

/-- **The search for a link reads no byte that is not there.** -/
theorem findLink_eq (line : List Char) (i : Nat) : findLink line i = .ok (findLink? line i) := by
  -- the search goes on behind a bracket, so less of the line is left
  induction hk : byteLen line + 1 - i using Nat.strong_induction_on generalizing i with
  | _ k ih =>
  subst hk
  by_cases hi : i ≤ byteLen line
  · have hcap := capture_eq link? hi
    cases hfirst : first? (readAt (fun _ => true) link? i) [] line with
    | none =>
      rw [hfirst] at hcap
      rw [findLink_none hi hcap, eq_comm, Except.ok.injEq, findLink?_eq_none]
      rintro q hle ⟨a, t, x, hcut, ha, -, hx⟩
      exact search_eq_none.1 hfirst q hle ⟨a, t, x, hcut, ha, rfl, hx⟩
    | some p =>
      rw [hfirst] at hcap
      obtain ⟨hleast, a, t, q, rfl, hq, rfl⟩ := (search_eq_some fun _ _ => link?_start).1 hfirst
      have hstart : (q.shift (byteLen a)).full.start = byteLen a := by
        simp [Parts.shift, Extent.shift, link?_start hq]
      rw [hstart] at hleast
      have hle := hleast.le
      rw [findLink_some hi hcap, hstart, findLink?_capture hq hleast]
      by_cases ha : a = []
      · subst ha
        rfl
      · have hpos := byteLen_pos ha
        have hbyte : byteLen a - 1 < (utf8 (a ++ t)).length := by
          rw [length_utf8, byteLen_append]
          omega
        have hbang : (utf8 (a ++ t))[byteLen a - 1] = bang ↔ a.getLast? = some '!' := by
          rw [getLast?_iff_byte rfl ha, List.getElem?_eq_getElem hbyte, Option.some.injEq]
          rfl
        rw [if_pos hpos, below_eq hpos, ok_bind, byteAt_eq_ok.2 (List.getElem?_eq_getElem hbyte), ok_bind]
        simp only [hbang]
        split_ifs with hlast
        · exact ih _ (by omega) _ rfl
        · rfl
  · rw [findLink_end (by omega), eq_comm, Except.ok.injEq, findLink?_eq_none]
    rintro q hle ⟨a, t, x, rfl, rfl, -⟩
    rw [byteLen_append] at hi
    omega

/-! ## Images and autolinks -/

theorem findImage_eq (line : List Char) (i : Nat) : findImage line i = .ok (findImage? line i) := by
  unfold findImage
  split_ifs with hi
  · rw [eq_comm, Except.ok.injEq, findImage?_eq_none]
    rintro q hle ⟨a, t, x, rfl, rfl, -⟩
    rw [byteLen_append] at hi
    omega
  · rw [capture_eq image? (by omega), findImage?, ← findImageFrom?_eq_first?]
    rfl

theorem findAutolink_eq (h : IsPlace line start) : findAutolink line start = .ok (findAutolink? line start) := by
  obtain ⟨a, rest, rfl, rfl⟩ := h
  rw [findAutolink, findAutolink?, slice_rest, ok_bind, dropBytes?_append, Option.bind_some]
  cases hi : find? ['<'] rest with
  | none => rfl
  | some i =>
    obtain ⟨b, c, rfl, rfl⟩ := of_find? hi
    have hopen : byteLen ['<'] = 1 := rfl
    have hbehind := slice_rest (a ++ b ++ ['<']) c
    have hdrop := dropBytes?_append (b ++ ['<']) c
    simp only [byteLen_append, hopen] at hbehind hdrop
    have hline : a ++ (b ++ ['<'] ++ c) = a ++ b ++ ['<'] ++ c := by simp
    simp only [byteLen_append, hopen, hline, hbehind, hdrop, ok_bind, Option.bind_some]
    rfl

/-- the parenthesis that closes the target of what is found stands before the end -/
theorem closeParen_eq {opener : List Char} (h : p.Reads opener line) : closeParen p = .ok p.closeParen := by
  obtain ⟨a, label, target, b, -, rfl⟩ := h
  exact below_eq (Nat.le_add_left 1 _)

end MarkVeil.Marker.Link.Checked
