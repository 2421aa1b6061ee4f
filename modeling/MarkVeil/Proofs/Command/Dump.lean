/-
A listing is read back.

An entry is what a line of a listing tells: a kind, two offsets and the text between them. `readRow?` reads it from the
line, so no two entries have one line (`row_injective`). Main result:
- `dump_exact`: cut at its line feeds, a listing is one line for each range of an enabled kind, the line tells this
  range and the text under it, and the ranges told, kind by kind, are those that an editor is told to decorate while no
  line is revealed.
-/
import MarkVeil.Command.Run
import MarkVeil.Proofs.Editor.Update
import MarkVeil.Proofs.Text.Quoted

namespace MarkVeil.Command

open MarkVeil.Text
open MarkVeil.Decoration (Kind Range Reader extract ofTree_nonempty ofTree_places)
open MarkVeil.Editor (Groups Host Options decorations update)

/-- what a line of a listing tells -/
structure Entry where
  kind : Kind
  start : Nat
  stop : Nat
  snippet : List Char
  deriving DecidableEq

namespace Entry

def extent (e : Entry) : Extent := ⟨e.start, e.stop⟩

def row (e : Entry) : List Char :=
  e.kind.name.toList ++ ' ' :: (digits e.start ++ '.' :: '.' :: (digits e.stop ++ ' ' :: quote e.snippet))

end Entry

/-! ## Reading a line -/

/-- what stands before the first `c`, and what behind it -/
def cut? (c : Char) (s : List Char) : Option (List Char × List Char) :=
  match s.dropWhile (· != c) with
  | [] => none
  | _ :: rest => some (s.takeWhile (· != c), rest)

/-- the number that decimal digits write -/
def number? (s : List Char) : Option Nat :=
  if s ≠ [] ∧ s.all Char.isDigit then some (Nat.ofDigitChars 10 s 0) else none

def readRow? (s : List Char) : Option Entry := do
  let (name, s) ← cut? ' ' s
  let kind ← Kind.ofName? (String.ofList name)
  let (first, s) ← cut? '.' s
  let start ← number? first
  let (between, s) ← cut? '.' s
  let (last, s) ← cut? ' ' s
  let stop ← number? last
  let snippet ← unquote? s
  if between = [] then return ⟨kind, start, stop, snippet⟩ else none

variable {read : Reader} {c : Char} {s text : List Char} {rows : List (List Char)} {r : Range} {o : Options}
  {h : Host} {e : Entry} {es : List Entry} {k : Kind}

/-- a text is cut where a character first comes -/
theorem cut?_append (hc : c ∉ s) (rest : List Char) : cut? c (s ++ c :: rest) = some (s, rest) := by
  have hall : ∀ x ∈ s, (x != c) = true := by
    intro x hx
    rw [bne_iff_ne]
    rintro rfl
    exact hc hx
  rw [cut?, List.dropWhile_append_of_pos hall, List.dropWhile_cons_of_neg (by simp), List.takeWhile_append_of_pos hall,
    List.takeWhile_cons_of_neg (by simp), List.append_nil]

theorem isDigit_digits {n : Nat} : ∀ x ∈ digits n, x.isDigit = true := fun _ hx =>
  Nat.isDigit_of_mem_toDigits (by norm_num) le_rfl hx

/-- digits are no other characters -/
theorem not_mem_digits (hc : c.isDigit = false) (n : Nat) : c ∉ digits n := by
  intro hmem
  rw [isDigit_digits c hmem] at hc
  cases hc

theorem number?_digits (n : Nat) : number? (digits n) = some n := by
  rw [number?, if_pos ⟨Nat.toDigits_ne_nil, List.all_eq_true.2 isDigit_digits⟩]
  exact congrArg some (Nat.ofDigitChars_toDigits (by norm_num) le_rfl)

/-- **A line gives back its entry.** -/
theorem readRow?_row (e : Entry) : readRow? e.row = some e := by
  have hname : ' ' ∉ e.kind.name.toList := by cases e.kind <;> decide
  have hdot (n : Nat) : '.' ∉ digits n := not_mem_digits (by decide) n
  have hblank (n : Nat) : ' ' ∉ digits n := not_mem_digits (by decide) n
  have hbetween (rest : List Char) : cut? '.' ('.' :: rest) = some ([], rest) := cut?_append List.not_mem_nil rest
  simp only [readRow?, Entry.row, cut?_append hname, cut?_append (hdot _), cut?_append (hblank _), hbetween,
    String.ofList_toList, Kind.ofName?_name, number?_digits, unquote?_quote, Option.bind_eq_bind, Option.bind_some,
    if_true]
  rfl

/-- no two entries have one line -/
theorem row_injective : Function.Injective Entry.row := by
  intro e e' heq
  have hread := readRow?_row e
  rw [heq, readRow?_row] at hread
  exact (Option.some.inj hread).symm

theorem feed_not_mem_row (e : Entry) : '\n' ∉ e.row := by
  have hname : '\n' ∉ e.kind.name.toList := by cases e.kind <;> decide
  have hdigits (n : Nat) : '\n' ∉ digits n := not_mem_digits (by decide) n
  simp [Entry.row, hname, hdigits, feed_not_mem_quote]

/-! ## Lines of a listing -/

/-- lines with their line feeds are cut into the lines, and nothing behind the last -/
theorem splitOn_rows (hrows : ∀ row ∈ rows, '\n' ∉ row) :
    (rows.flatMap (· ++ ['\n'])).splitOn '\n' = rows ++ [[]] := by
  have hjoin : rows.flatMap (· ++ ['\n']) = ['\n'].intercalate (rows ++ [[]]) := by
    induction rows with
    | nil => rfl
    | cons row rows ih =>
      have hne : rows ++ [[]] ≠ [] := by simp
      rw [List.flatMap_cons, ih fun x hx => hrows x (List.mem_cons_of_mem row hx), List.cons_append,
        List.intercalate_cons_of_ne_nil hne]
  rw [hjoin, List.splitOn_intercalate]
  · simpa [or_imp, forall_and] using hrows
  · simp

def entryOf (text : List Char) (r : Range) : Entry := ⟨r.kind, r.start, r.stop, (r.slice? text).getD []⟩

/-- the entries of a document, without disabled kinds -/
def entriesOf (text : List Char) (o : Options) (read : Reader := Token.parse) : List Entry :=
  ((extract text read).filter fun r => o.isEnabled r.kind).map (entryOf text)

theorem dump_eq (read : Reader) (text : List Char) (o : Options) :
    dump text o read = ((entriesOf text o read).map Entry.row).flatMap (· ++ ['\n']) := by
  have hline : dumpLine text = fun r => (entryOf text r).row ++ ['\n'] := by
    funext r
    simp [dumpLine, entryOf, Entry.row]
  rw [dump, hline, entriesOf, List.map_map, List.flatMap_map]
  rfl

/-- the text under a range of a document is in its entry -/
theorem slice?_entryOf (hr : r ∈ extract text read) :
    slice? text r.start r.stop = some (entryOf text r).snippet := by
  obtain ⟨hstart, hstop⟩ := ofTree_places hr
  obtain ⟨m, hm⟩ := hstart.exists_slice hstop (ofTree_nonempty hr).le
  rw [entryOf, Range.slice?, hm]
  rfl

/-! ## Groups of a listing -/

def extentsOf (es : List Entry) (k : Kind) : List Extent := (es.filter (·.kind = k)).map Entry.extent

/-- while no line is revealed, a document's decorations are the ranges of its entries -/
theorem decorations_unrevealed (hreveal : o.revealSelectedLines = false) (h : Host) :
    decorations o h read = Groups.ofFun (extentsOf (entriesOf h.text o read)) := by
  have hnone (r : Range) : Groups.isRevealed (if o.revealSelectedLines then h.selections else [])
      (fun offset => (h.position offset).line) r = false := by
    rw [hreveal]
    rfl
  have hget : (decorations o h read).get = extentsOf (entriesOf h.text o read) := by
    funext k
    simp only [decorations, Groups.ofRanges, Groups.get_restrict, Groups.get_ofFun, hnone, Bool.not_false,
      List.filter_true, extentsOf, entriesOf, List.filter_map, List.map_map, List.filter_filter]
    split_ifs with hk
    · refine congrArg (List.map Range.extent) (List.filter_congr fun r _ => ?_)
      by_cases hrk : r.kind = k
      · simp [entryOf, hrk, hk]
      · simp [entryOf, hrk]
    · rw [eq_comm, List.map_eq_nil_iff, List.filter_eq_nil_iff]
      intro r _ hr
      obtain ⟨hrk, henabled⟩ := Bool.and_eq_true_iff.1 hr
      rw [← of_decide_eq_true hrk] at hk
      exact hk henabled
  rw [← hget, decorations, Groups.ofFun_get_restrict]

/-! ## Listings -/

/-- `es` are what a listing of a host's document tells -/
structure Listing (o : Options) (h : Host) (es : List Entry) (read : Reader := Token.parse) : Prop where
  /-- one entry for each range of an enabled kind, in order, with the text under it -/
  ranges : List.Forall₂ (fun (r : Range) (e : Entry) => e.kind = r.kind ∧ e.start = r.start ∧ e.stop = r.stop ∧
    slice? h.text r.start r.stop = some e.snippet) ((extract h.text read).filter (·.kind ∉ o.disabledKinds)) es
  /-- cut at its line feeds, the listing is one line for each entry, and nothing behind the last -/
  lines : (dump h.text o read).splitOn '\n' = es.map Entry.row ++ [[]]
  /-- an entry is read from its line -/
  told : ∀ e ∈ es, readRow? e.row = some e
  /-- and its line is that of no other -/
  unique : ∀ e ∈ es, ∀ e', e'.row = e.row → e' = e
  /-- an update that reveals no lines returns the ranges of the entries, kind by kind and in order -/
  groups : ∃ g cs, update { o with revealSelectedLines := false } h read = (some g, cs) ∧
    (∀ k, g.get k = extentsOf es k) ∧
    g.entries = (Kind.all.filter fun k => extentsOf es k ≠ []).map fun k => (k, extentsOf es k)

/-- **A listing can be read back, and agrees with what an editor is told**: each of its lines tells one range of an
enabled kind and the text under it, whatever characters this has, and together these are the document's decorations
while no line is revealed. Nothing is asked of the reader of tokens. -/
theorem dump_exact (read : Reader) (o : Options) (h : Host) (hlang : o.appliesTo h.language = true) :
    ∃ es, Listing o h es read := by
  refine ⟨entriesOf h.text o read, ?_, ?_, fun e _ => readRow?_row e, fun e _ e' heq => row_injective heq, ?_⟩
  · have hfilter : (extract h.text read).filter (·.kind ∉ o.disabledKinds) =
        (extract h.text read).filter fun r => o.isEnabled r.kind := by
      refine List.filter_congr fun r _ => ?_
      simp [Options.isEnabled]
    rw [hfilter, entriesOf, List.forall₂_map_right_iff, List.forall₂_same]
    intro r hr
    exact ⟨rfl, rfl, rfl, slice?_entryOf (List.mem_filter.1 hr).1⟩
  · rw [dump_eq, splitOn_rows]
    intro row hrow
    obtain ⟨e, -, rfl⟩ := List.mem_map.1 hrow
    exact feed_not_mem_row e
  · have hdecorations : decorations { o with revealSelectedLines := false } h read =
        Groups.ofFun (extentsOf (entriesOf h.text { o with revealSelectedLines := false } read)) :=
      decorations_unrevealed rfl h
    refine ⟨_, _, if_pos hlang, ?_, ?_⟩
    · intro k
      rw [hdecorations, Groups.get_ofFun]
      rfl
    · rw [hdecorations, Groups.entries_ofFun]
      rfl

/-- a line feed, a quote and a backslash in code are escaped, so each range keeps to its line -/
theorem dump_exact_escaped :
    let s := "`\"\n\\`".toList
    let h : Host := ⟨"markdown", s, (LineIndex.ofText s).position, [.line 0]⟩
    Options.default.appliesTo h.language = true ∧
      dump h.text Options.default = "hide 0..1 \"`\"\nhide 4..5 \"`\"\ncode 1..4 \"\\\"\\n\\\\\"\n".toList ∧
      ∃ es, Listing Options.default h es := by
  intro s h
  have hlang : Options.default.appliesTo h.language = true := by decide +kernel
  exact ⟨hlang, by decide +kernel, dump_exact Token.parse Options.default h hlang⟩

end MarkVeil.Command
