/-
Blank characters.

`isBlank` is the Unicode property White_Space. `isGap` holds of the blanks that Markdown skips inside a line, and
`isAsciiBlank` also of the two line ends.
-/
namespace MarkVeil.Text

/-- the Unicode property White_Space -/
def isBlank (c : Char) : Bool :=
  let n := c.toNat
  (9 ≤ n && n ≤ 13) || n == 0x20 || n == 0x85 || n == 0xA0 || n == 0x1680 || (0x2000 ≤ n && n ≤ 0x200A) ||
    n == 0x2028 || n == 0x2029 || n == 0x202F || n == 0x205F || n == 0x3000

/-- tab, vertical tab, form feed or space -/
def isGap (c : Char) : Bool := c == ' ' || c == '\t' || c == '\x0b' || c == '\x0c'

/-- a gap or a line end -/
def isAsciiBlank (c : Char) : Bool := isGap c || c == '\n' || c == '\r'

def trimStart (s : List Char) : List Char := s.dropWhile isBlank

def trimEnd (s : List Char) : List Char := (s.reverse.dropWhile isBlank).reverse

def trim (s : List Char) : List Char := trimEnd (trimStart s)

def allBlank (s : List Char) : Bool := s.all isBlank

/-- a text without its blanks begins with none -/
theorem head?_trim {s : List Char} {c : Char} (h : (trim s).head? = some c) : isBlank c = false := by
  have hprefix : trim s <+: trimStart s := by
    rw [trim, trimEnd, ← List.reverse_suffix, List.reverse_reverse]
    exact List.dropWhile_suffix _
  obtain ⟨t, ht⟩ := List.head?_eq_some_iff.1 h
  obtain ⟨rest, hrest⟩ := hprefix
  have hhead : (s.dropWhile isBlank).head? = some c := by
    rw [← trimStart, ← hrest, ht, List.cons_append, List.head?_cons]
  have := List.head?_dropWhile_not isBlank s
  rwa [hhead] at this

end MarkVeil.Text
