/-
Runs of backticks, told by the bytes of a text.

A `TickRun` is a run of so many bytes that begins at the start of a search or behind another byte. `scanRuns` looks for
one byte by byte: it goes past a byte that is no backtick and past a whole run of another length, and every byte that it
reads is there. Main result:
- `findRun?_least`: the search for a run ends with the least such offset, and with nothing if there is none; it never
  stops inside a longer run that begins at or after its start.
-/
import MarkVeil.Proofs.Marker.CodeSpan
import MarkVeil.Proofs.Text.Access

namespace MarkVeil.Marker

open MarkVeil.Text

variable {s : List Char} {bs : List UInt8} {start len i j p q : Nat}

def tick : UInt8 := '`'.toUInt8

def tickCount (bs : List UInt8) : Nat := (bs.takeWhile (· == tick)).length

/-- a run of backticks may begin at an offset: no backtick stands before it, unless it is the start -/
def Begins (bs : List UInt8) (start p : Nat) : Prop := p = start ∨ bs[p - 1]? ≠ some tick

/-- exactly `len` backticks follow an offset; none stands before it, unless it is the start -/
structure TickRun (bs : List UInt8) (start len p : Nat) : Prop where
  pos : 0 < len
  le : start ≤ p
  begins : Begins bs start p
  count : tickCount (bs.drop p) = len

/-! ## Bytes and characters -/

theorem tickCount_utf8 (s : List Char) : tickCount (utf8 s) = countRun '`' s := by
  induction s with
  | nil => rfl
  | cons c s ih =>
    by_cases hc : c = '`'
    · subst hc
      have hrun : tickCount (tick :: utf8 s) = tickCount (utf8 s) + 1 := by simp [tickCount]
      rw [utf8_cons, utf8EncodeChar_ascii rfl, List.singleton_append]
      exact hrun.trans (congrArg (· + 1) ih)
    · obtain ⟨x, xs, hx⟩ := List.exists_cons_of_ne_nil (String.utf8EncodeChar_ne_nil (c := c))
      have hne : x ≠ tick := by
        rintro rfl
        exact hc (eq_of_mem_utf8EncodeChar rfl (hx ▸ List.mem_cons_self))
      simp [hx, tickCount, countRun, runLen, hne, hc]

/-- a backtick begins a run of at least one -/
theorem tickCount_drop_pos : 0 < tickCount (bs.drop i) ↔ bs[i]? = some tick := by
  rw [← List.head?_drop, tickCount]
  cases bs.drop i with
  | nil => simp
  | cons x xs =>
    by_cases hx : x = tick
    · simp [hx]
    · simp [hx]

/-- **A run of backtick characters is a run of their bytes.** -/
theorem runFrom_iff_tickRun : RunFrom s start len p ↔ TickRun (utf8 s) start len p := by
  -- the text before a place ends in a backtick exactly if the byte before it is one
  have hbefore : ∀ {a t : List Char}, start ≤ byteLen a →
      (byteLen a = start ∨ a.getLast? ≠ some '`' ↔ Begins (utf8 (a ++ t)) start (byteLen a)) := by
    intro a t hle
    unfold Begins
    by_cases ha : a = []
    · subst ha
      have hstart : byteLen [] = start := (Nat.le_zero.1 hle).symm
      simp [hstart]
    · rw [Ne, getLast?_iff_byte rfl ha]
      rfl
  constructor
  · rintro ⟨hpos, hle, a, b, rfl, rfl, hbegins, hb⟩
    refine ⟨hpos, hle, (hbefore hle).1 hbegins, ?_⟩
    rw [drop_utf8, tickCount_utf8, countRun_replicate_append len hb]
  · rintro ⟨hpos, hle, hbegins, hcount⟩
    have hbyte : (utf8 s)[p]? = some tick := tickCount_drop_pos.1 (hcount ▸ hpos)
    obtain ⟨a, b, rfl, rfl⟩ := (getElem?_utf8_iff rfl).1 hbyte
    rw [drop_utf8, tickCount_utf8] at hcount
    refine ⟨hpos, hle, a, ('`' :: b).drop len, ?_, rfl, (hbefore hle).2 hbegins, ?_⟩
    · rw [← hcount, replicate_append_drop]
    · rw [← hcount]
      exact head?_drop_countRun '`' _

/-! ## Byte by byte -/

/-- up to its end a run has backticks -/
theorem getElem?_of_lt_tickCount (hi : i ≤ p) (hp : p < i + tickCount (bs.drop i)) : bs[p]? = some tick := by
  obtain ⟨j, rfl⟩ := Nat.exists_eq_add_of_le hi
  have hj : j < ((bs.drop i).takeWhile (· == tick)).length := Nat.add_lt_add_iff_left.1 hp
  rw [← List.getElem?_drop, ← List.takeWhile_append_dropWhile (p := (· == tick)) (l := bs.drop i),
    List.getElem?_append_left hj, List.getElem?_eq_getElem hj]
  simpa using List.mem_takeWhile_imp (List.getElem_mem hj)

/-- right behind a run there is no backtick -/
theorem getElem?_tickCount_ne (bs : List UInt8) (i : Nat) : bs[i + tickCount (bs.drop i)]? ≠ some tick := by
  rw [← List.getElem?_drop]
  induction bs.drop i with
  | nil => simp
  | cons x xs ih =>
    by_cases hx : x = tick
    · simpa [tickCount, hx] using ih
    · simp [tickCount, hx]

/-- a run that begins at an offset has no run begin inside it -/
theorem Begins.not_inside (h : Begins bs start p) (hstart : start ≤ q) (hq : q ≤ p)
    (hp : p < q + tickCount (bs.drop q)) : p = q := by
  by_contra hne
  rcases h with rfl | hbefore
  · omega
  · exact hbefore (getElem?_of_lt_tickCount (by omega : q ≤ p - 1) (by omega))

/-- the first run of exactly `len` backticks from byte `i` on: past a byte that is no backtick, past a run of another
length -/
def scanRuns (bs : List UInt8) (len i : Nat) : Access (Option Nat) :=
  if i < bs.length then
    match _hb : Checked.byteAt bs i with
    | .error e => .error e
    | .ok x =>
      if hx : x ≠ tick then scanRuns bs len (i + 1)
      else
        match _hr : Checked.bytesFrom bs i with
        | .error e => .error e
        | .ok rest => if tickCount rest = len then .ok (some i) else scanRuns bs len (i + tickCount rest)
  else .ok none
termination_by bs.length - i
decreasing_by
  · omega
  · -- the run that is passed has at least the backtick that was read
    obtain rfl := not_not.1 hx
    have hpos := tickCount_drop_pos.2 (Checked.byteAt_eq_ok.1 _hb)
    rw [Checked.bytesFrom_eq (by omega), Except.ok.injEq] at _hr
    subst _hr
    omega

/-- past the end there is nothing -/
theorem scanRuns_end (h : bs.length ≤ i) : scanRuns bs len i = .ok none := by
  rw [scanRuns, if_neg (by omega)]

/-- past a byte that is no backtick -/
theorem scanRuns_skip (hi : i < bs.length) (hx : bs[i]? ≠ some tick) :
    scanRuns bs len i = scanRuns bs len (i + 1) := by
  have hbyte : bs[i]? = some bs[i] := List.getElem?_eq_getElem hi
  have hne : bs[i] ≠ tick := fun h => hx (h ▸ hbyte)
  rw [scanRuns, if_pos hi]
  split
  next e he => simp [Checked.byteAt_eq_ok.2 hbyte] at he
  next x hb =>
    obtain rfl := Option.some.inj (hbyte.symm.trans (Checked.byteAt_eq_ok.1 hb))
    rw [dif_pos hne]

/-- a run is the one that is looked for, or is passed as a whole -/
theorem scanRuns_run (hx : bs[i]? = some tick) : scanRuns bs len i =
    if tickCount (bs.drop i) = len then .ok (some i) else scanRuns bs len (i + tickCount (bs.drop i)) := by
  obtain ⟨hi, -⟩ := List.getElem?_eq_some_iff.1 hx
  rw [scanRuns, if_pos hi]
  split
  next e he => simp [Checked.byteAt_eq_ok.2 hx] at he
  next x hb =>
    obtain rfl := Option.some.inj (hx.symm.trans (Checked.byteAt_eq_ok.1 hb))
    rw [dif_neg (not_not.2 rfl)]
    split
    next e he => simp [Checked.bytesFrom_eq hi.le] at he
    next rest hr =>
      rw [Checked.bytesFrom_eq hi.le, Except.ok.injEq] at hr
      rw [hr]

/-- what a search for a run of `len` backticks may answer: the least one, or that there is none -/
def Finds (bs : List UInt8) (start len : Nat) : Option Nat → Prop
  | some p => Least (TickRun bs start len) start p
  | none => ∀ q, ¬ TickRun bs start len q

theorem Finds.unique {r r' : Option Nat} (h : Finds bs start len r) (h' : Finds bs start len r') : r = r' := by
  cases r with
  | none =>
    cases r' with
    | none => rfl
    | some p => exact absurd h'.stands (h p)
  | some p =>
    cases r' with
    | none => exact absurd h.stands (h' p)
    | some q => exact congrArg some (Least.unique h h')

/-- before `i` no run of the length begins, and none goes on at `i` -/
structure Passed (bs : List UInt8) (start len i : Nat) : Prop where
  le : start ≤ i
  begins : bs[i]? = some tick → Begins bs start i
  none : ∀ q < i, ¬ TickRun bs start len q

/-- a turn that no run of the length begins in -/
theorem Passed.turn (h : Passed bs start len i) (hij : i ≤ j) (hbegins : bs[j]? = some tick → Begins bs start j)
    (hnone : ∀ q, i ≤ q → q < j → ¬ TickRun bs start len q) : Passed bs start len j := by
  refine ⟨h.le.trans hij, hbegins, ?_⟩
  intro q hq
  rcases Nat.lt_or_ge q i with hqi | hqi
  · exact h.none q hqi
  · exact hnone q hqi hq

/-- **The bytes tell the first run, and the search for it ends.** -/
theorem scanRuns_finds (hlen : 0 < len) (h : Passed bs start len i) :
    ∃ r, scanRuns bs len i = .ok r ∧ Finds bs start len r := by
  -- every turn goes on, so the bytes that are left become fewer
  induction hk : bs.length - i using Nat.strong_induction_on generalizing i with
  | _ k ih =>
  subst hk
  by_cases hi : i < bs.length
  · by_cases hx : bs[i]? = some tick
    · rw [scanRuns_run hx]
      split_ifs with hcount
      · refine ⟨some i, rfl, ⟨hlen, h.le, h.begins hx, hcount⟩, h.le, ?_⟩
        intro q hq _
        by_contra hlt
        exact h.none q (by omega) hq
      · have hpos := tickCount_drop_pos.2 hx
        refine ih _ (by omega) (h.turn (Nat.le_add_right _ _) ?_ ?_) rfl
        · intro htick
          exact absurd htick (getElem?_tickCount_ne bs i)
        · intro q hqi hq hrun
          obtain rfl := hrun.begins.not_inside h.le hqi hq
          exact hcount hrun.count
    · rw [scanRuns_skip hi hx]
      refine ih _ (by omega) (h.turn (Nat.le_succ i) ?_ ?_) rfl
      · intro _
        exact Or.inr (by rwa [Nat.add_sub_cancel])
      · intro q hqi hq hrun
        obtain rfl : q = i := by omega
        exact hx (tickCount_drop_pos.1 (hrun.count ▸ hlen))
  · refine ⟨none, scanRuns_end (by omega), ?_⟩
    intro q hrun
    by_cases hqi : q < i
    · exact h.none q hqi hrun
    · have hbyte := tickCount_drop_pos.1 (hrun.count ▸ hlen)
      obtain ⟨hq, -⟩ := List.getElem?_eq_some_iff.1 hbyte
      omega

/-! ## The search -/

/-- the first run of exactly `len` backticks at or after a byte -/
def Checked.findRun (bs : List UInt8) (start len : Nat) : Access (Option Nat) :=
  if len = 0 then .ok none else scanRuns bs len start

theorem findRun?_finds (s : List Char) (start len : Nat) : Finds (utf8 s) start len (findRun? s start len) := by
  cases hrun : findRun? s start len with
  | none =>
    intro q hq
    exact findRun?_eq_none.1 hrun q (runFrom_iff_tickRun.2 hq)
  | some p =>
    obtain ⟨hp, hleast⟩ := findRun?_eq_some.1 hrun
    exact ⟨runFrom_iff_tickRun.1 hp, hp.le, fun q hq _ => hleast q (runFrom_iff_tickRun.2 hq)⟩

/-- the search by bytes reads no byte that is not there, and answers as the search by characters -/
theorem Checked.findRun_eq (s : List Char) (start len : Nat) :
    findRun (utf8 s) start len = .ok (findRun? s start len) := by
  have hfinds := findRun?_finds s start len
  unfold Checked.findRun
  split_ifs with hlen
  · subst hlen
    have hnone : Finds (utf8 s) start 0 none := fun q hq => absurd hq.pos (Nat.lt_irrefl 0)
    rw [hfinds.unique hnone]
  · have hpassed : Passed (utf8 s) start len start :=
      ⟨le_rfl, fun _ => Or.inl rfl, fun q hq hrun => absurd hrun.le (by omega)⟩
    obtain ⟨r, hr, hr'⟩ := scanRuns_finds (Nat.pos_of_ne_zero hlen) hpassed
    rw [hr, hfinds.unique hr']

/-- what a search for a run of `len` backticks from `start` on answers -/
structure Exact (bs : List UInt8) (start len : Nat) (found? : Option Nat) : Prop where
  found : ∀ p, found? = some p ↔ Least (TickRun bs start len) start p
  missed : found? = none ↔ ∀ p, ¬ TickRun bs start len p
  /-- what is found inside a run that begins at or after the start is all of that run -/
  whole : ∀ p q, found? = some p → start ≤ q → Begins bs start q → q ≤ p → p < q + tickCount (bs.drop q) →
    p = q ∧ tickCount (bs.drop q) = len

/-- **A search for a run of backticks ends with the first run of its length**, wherever it begins, be it inside a
character or past the end. It reads no byte that is not there, and never stops inside a longer run. -/
theorem findRun?_least (s : List Char) (start len : Nat) :
    Checked.findRun (utf8 s) start len = .ok (findRun? s start len) ∧ Exact (utf8 s) start len (findRun? s start len) := by
  have hfinds := findRun?_finds s start len
  refine ⟨Checked.findRun_eq s start len, ⟨fun p => ?_, ?_, ?_⟩⟩
  · constructor
    · intro hp
      rwa [hp] at hfinds
    · intro hp
      have hfirst : Finds (utf8 s) start len (some p) := hp
      exact hfinds.unique hfirst
  · constructor
    · intro hnone
      rwa [hnone] at hfinds
    · intro hnone
      have hnothing : Finds (utf8 s) start len none := hnone
      exact hfinds.unique hnothing
  · intro p q hp hle hbegins hqp hpq
    rw [hp] at hfinds
    obtain rfl := hfinds.stands.begins.not_inside hle hqp hpq
    exact ⟨rfl, hfinds.stands.count⟩

example : findRun? "```` ``".toList 1 2 = some 5 ∧ findRun? "é```".toList 1 3 = some 2 := by decide

end MarkVeil.Marker
