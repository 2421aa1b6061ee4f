/-
Accesses that are checked.

`Checked` has the accesses of a text that can go wrong: a slice whose ends are reversed, out of bounds or inside a
character, a byte past the end, an offset below zero. Each answers with a `Misread` where it goes wrong, and the
searches of a `Source` are written over them. Main results, for a text with its own lines and a cursor at a place:
- `findOnLine_eq`, `findBefore_eq`, `findAfter_eq`, `lineText_eq`: these searches misread nothing, and each answers as
  the search that runs;
- `findForward_eq`, `findForward_reversed`: nor does the search that goes on, but where it would have to go back.
-/
import MarkVeil.Proofs.Text.Encoded
import MarkVeil.Proofs.Text.Source

namespace MarkVeil.Text

/-- what an access was that went wrong -/
inductive Misread where
  /-- a slice between reversed offsets, out of bounds or inside a character -/
  | slice (start stop : Nat)
  /-- a byte past the end -/
  | byte (i : Nat)
  /-- an offset less more than it has -/
  | below (a b : Nat)
  deriving DecidableEq, Repr

/-- what is read, or the access that went wrong -/
abbrev Access (α : Type) := Except Misread α

namespace Checked

variable {α β : Type} {s m : List Char} {bs : List UInt8} {x : UInt8} {a b i j line cursor start stop : Nat}

/-! ## Single accesses -/

/-- the text between two offsets -/
def slice (s : List Char) (start stop : Nat) : Access (List Char) :=
  match slice? s start stop with
  | some m => .ok m
  | none => .error (.slice start stop)

def byteAt (bs : List UInt8) (i : Nat) : Access UInt8 :=
  match bs[i]? with
  | some x => .ok x
  | none => .error (.byte i)

def bytesFrom (bs : List UInt8) (i : Nat) : Access (List UInt8) :=
  if i ≤ bs.length then .ok (bs.drop i) else .error (.byte i)

/-- an offset `b` bytes before `a` -/
def below (a b : Nat) : Access Nat := if b ≤ a then .ok (a - b) else .error (.below a b)

@[simp] theorem ok_bind (a : α) (f : α → Access β) : (.ok a : Access α) >>= f = f a := rfl

theorem slice_eq (h : slice? s i j = some m) : slice s i j = .ok m := by rw [slice, h]

theorem byteAt_eq_ok : byteAt bs i = .ok x ↔ bs[i]? = some x := by
  unfold byteAt
  split
  next y hy => simp [hy]
  next hnone => simp [hnone]

theorem bytesFrom_eq (h : i ≤ bs.length) : bytesFrom bs i = .ok (bs.drop i) := if_pos h

theorem below_eq (h : b ≤ a) : below a b = .ok (a - b) := if_pos h

/-- the text up to a place -/
theorem slice_front (s t : List Char) : slice (s ++ t) 0 (byteLen s) = .ok s :=
  slice_eq (slice?_eq_some.2 ⟨[], t, rfl, rfl, (Nat.zero_add _).symm⟩)

/-- the text from a place on -/
theorem slice_rest (s t : List Char) : slice (s ++ t) (byteLen s) (byteLen (s ++ t)) = .ok t :=
  slice_eq (slice?_eq_some.2 ⟨s, [], by simp, rfl, byteLen_append s t⟩)

/-! ## Searches -/

/-- `Source.lineText?`, with the slice of the line checked -/
def lineText (src : Source) (line : Nat) : Access (Option (List Char)) :=
  match src.lines.extent? line with
  | some r => do
    let text ← slice src.text r.start r.stop
    return some text
  | none => return none

/-- a needle between two offsets, whose slice is checked -/
def findBetween (src : Source) (start stop : Nat) (needle : List Char) : Access (Option Nat) := do
  let rest ← slice src.text start stop
  return (find? needle rest).map (start + ·)

/-- `Source.findOnLine?`, with the slice from the cursor to the end of the line checked -/
def findOnLine (src : Source) (line : Nat) (marker : List Char) (cursor : Nat) : Access (Option Nat) :=
  if marker.isEmpty then return none
  else
    match src.scanStart? line cursor, src.lines.stop? line with
    | some start, some stop => findBetween src start stop marker
    | _, _ => return none

/-- where a search that goes on stops: at the end of a line or of the text -/
def lastStop? (src : Source) : (lastLine? : Option Nat) → Option Nat
  | some line => src.lines.stop? line
  | none => some (byteLen src.text)

/-- `Source.findForward?`, with the slice from the offset to the end of the line or text checked. If that end is before
the offset, there is no such slice: a misread where the reader is `strict`, and nothing found where it is not. -/
def findForward (strict : Bool) (src : Source) (start : Nat) (lastLine? : Option Nat) (needle : List Char) :
    Access (Option Nat) :=
  if needle.isEmpty then return none
  else
    match lastStop? src lastLine? with
    | some stop => if stop < start ∧ !strict then return none else findBetween src start stop needle
    | none => return none

/-- `Source.findBefore?`, with the slice before the content checked -/
def findBefore (src : Source) (content marker : List Char) : Access (Option Nat) :=
  if content.isEmpty ∨ marker.isEmpty then return none
  else
    match find? content src.text with
    | some pos => do
      let front ← slice src.text 0 pos
      return rfind? marker front
    | none => return none

/-- `Source.findAfter?`, with the slice after the content checked -/
def findAfter (src : Source) (content marker : List Char) : Access (Option Nat) :=
  if content.isEmpty ∨ marker.isEmpty then return none
  else
    match find? content src.text with
    | some pos => do
      let rest ← slice src.text (pos + byteLen content) (byteLen src.text)
      return (find? marker rest).map (pos + byteLen content + ·)
    | none => return none

/-- a line begins before it stops -/
theorem start_le_stop {e : Extent} (h : (Source.ofText s).lines.extent? line = some e) : e.start ≤ e.stop := by
  obtain ⟨b, l, a, -, -, rfl⟩ := LineIndex.extent?_eq_some.1 h
  exact Nat.le_add_right _ _

/-- a search on a line begins at a place of the line -/
theorem isPlace_scanStart? (hc : IsPlace s cursor) (h : (Source.ofText s).scanStart? line cursor = some start) :
    ∃ e, (Source.ofText s).lines.extent? line = some e ∧ IsPlace s start ∧ e.start ≤ start ∧ start ≤ e.stop := by
  obtain ⟨e, he, hstart⟩ := Option.map_eq_some_iff.1 h
  refine ⟨e, he, ?_⟩
  split_ifs at hstart with hin
  · subst hstart
    exact ⟨hc, hin⟩
  · subst hstart
    exact ⟨(Source.isPlace_of_extent? he).1, le_rfl, start_le_stop he⟩

theorem lineText_eq (s : List Char) (line : Nat) :
    lineText (.ofText s) line = .ok ((Source.ofText s).lineText? line) := by
  rw [lineText, Source.lineText?, LineIndex.text?]
  cases he : (Source.ofText s).lines.extent? line with
  | none => rfl
  | some e =>
    obtain ⟨hstart, hstop⟩ := Source.isPlace_of_extent? he
    obtain ⟨m, hm⟩ := hstart.exists_slice hstop (start_le_stop he)
    have hslice : slice? (Source.ofText s).text e.start e.stop = some m := hm
    simp only [slice_eq hslice, Option.bind_some, hslice]
    rfl

theorem findBetween_eq (hi : IsPlace s i) (hj : IsPlace s j) (hij : i ≤ j) (needle : List Char) :
    findBetween (.ofText s) i j needle = .ok ((Source.ofText s).findBetween? i j needle) := by
  obtain ⟨m, hm⟩ := hi.exists_slice hj hij
  have hslice : slice? (Source.ofText s).text i j = some m := hm
  simp only [findBetween, Source.findBetween?, slice_eq hslice, hslice, Option.bind_some]
  rfl

theorem findOnLine_eq (hc : IsPlace s cursor) (line : Nat) (marker : List Char) :
    findOnLine (.ofText s) line marker cursor = .ok ((Source.ofText s).findOnLine? line marker cursor) := by
  unfold findOnLine Source.findOnLine?
  split_ifs
  · rfl
  cases hstart : (Source.ofText s).scanStart? line cursor with
  | none => rfl
  | some start =>
    obtain ⟨e, he, hplace, -, hle⟩ := isPlace_scanStart? hc hstart
    simp only [LineIndex.stop?, he, Option.map_some, Option.bind_some]
    exact findBetween_eq hplace (Source.isPlace_of_extent? he).2 hle marker

theorem isPlace_lastStop? {lastLine? : Option Nat} (h : lastStop? (.ofText s) lastLine? = some stop) :
    IsPlace s stop := by
  cases lastLine? with
  | none =>
    obtain rfl := Option.some.inj h
    exact IsPlace.stop s
  | some line =>
    obtain ⟨e, he, rfl⟩ := Option.map_eq_some_iff.1 h
    exact (Source.isPlace_of_extent? he).2

/-- between reversed offsets there is no slice -/
theorem slice?_reversed (s : List Char) (h : stop < start) : slice? s start stop = none := if_neg (Nat.not_le.2 h)

theorem findForward_eq {strict : Bool} {lastLine? : Option Nat} {needle : List Char} (hstart : IsPlace s start)
    (h : strict = true → needle ≠ [] → ∀ stop, lastStop? (.ofText s) lastLine? = some stop → start ≤ stop) :
    findForward strict (.ofText s) start lastLine? needle =
      .ok ((Source.ofText s).findForward? start lastLine? needle) := by
  have hrun : (Source.ofText s).findForward? start lastLine? needle = if needle.isEmpty then none else
      (lastStop? (.ofText s) lastLine?).bind fun stop => (Source.ofText s).findBetween? start stop needle := by
    cases lastLine? <;> rfl
  rw [hrun, findForward]
  split_ifs with hneedle
  · rfl
  cases hlast : lastStop? (.ofText s) lastLine? with
  | none => rfl
  | some stop =>
    simp only [Option.bind_some]
    split_ifs with hlt
    · rw [Source.findBetween?, slice?_reversed _ hlt.1]
      rfl
    · have hle : start ≤ stop := by
        cases strict with
        | true => exact h rfl (by simpa using hneedle) stop hlast
        | false => simpa using hlt
      exact findBetween_eq hstart (isPlace_lastStop? hlast) hle needle

theorem findBefore_eq (src : Source) (content marker : List Char) :
    findBefore src content marker = .ok (src.findBefore? content marker) := by
  unfold findBefore Source.findBefore?
  split_ifs
  · rfl
  cases hpos : find? content src.text with
  | none => rfl
  | some pos =>
    obtain ⟨a, b, htext, rfl⟩ := of_find? hpos
    rw [List.append_assoc] at htext
    simp only [htext, slice_front, Option.bind_some, takeBytes?_append]
    rfl

theorem findAfter_eq (src : Source) (content marker : List Char) :
    findAfter src content marker = .ok (src.findAfter? content marker) := by
  unfold findAfter Source.findAfter?
  split_ifs
  · rfl
  cases hpos : find? content src.text with
  | none => rfl
  | some pos =>
    obtain ⟨a, b, htext, rfl⟩ := of_find? hpos
    simp only [htext, ← byteLen_append a content, slice_rest, Option.bind_some, dropBytes?_append]
    rfl

end Checked

end MarkVeil.Text
