import Mathlib.Data.List.Induction
import WebConfigAudit.Proofs.TokenRanges
/-!
A table of the offsets at which the lines of a text start.  The place of an
offset is looked up in it by halving, and it is the place that reading the text
from its start leads to.
-/

namespace WebConfigAudit.Text

/-- Where a search in a sorted table ends: at the number, or where the number
would have to be put in. -/
inductive Slot where
  | found (index : Nat)
  | missing (index : Nat)
deriving DecidableEq, Repr

/-- Search the entries from the first index up to the second by halving. -/
def searchBetween (table : List Nat) (n low high : Nat) : Slot :=
  if low < high then
    let middle := (low + high) / 2
    if n < table.getD middle 0 then searchBetween table n low middle
    else if n = table.getD middle 0 then .found middle
    else searchBetween table n (middle + 1) high
  else .missing low
termination_by high - low

/-- What the slot says of the number. -/
def Slot.IsFor (table : List Nat) (n : Nat) : Slot → Prop
  | .found index => table[index]? = some n
  | .missing index => index ≤ table.length ∧
      ∀ i m, table[i]? = some m → (i < index → m < n) ∧ (index ≤ i → n < m)

section Search

variable {table : List Nat} {n low high i j a b : Nat}

theorem lt_of_getElem? (hsorted : table.Pairwise (· < ·))
    (ha : table[i]? = some a) (hb : table[j]? = some b) (hij : i < j) :
    a < b := by
  obtain ⟨hi, rfl⟩ := List.getElem?_eq_some_iff.mp ha
  obtain ⟨hj, rfl⟩ := List.getElem?_eq_some_iff.mp hb
  exact List.pairwise_iff_getElem.mp hsorted i j hi hj hij

/-- The search keeps the entries before the stretch below the number and those
after it above. -/
theorem searchBetween_isFor (hsorted : table.Pairwise (· < ·))
    (hle : low ≤ high) (hhigh : high ≤ table.length)
    (hbelow : ∀ i m, table[i]? = some m → i < low → m < n)
    (habove : ∀ i m, table[i]? = some m → high ≤ i → n < m) :
    (searchBetween table n low high).IsFor table n := by
  induction hsize : high - low using Nat.strong_induction_on
    generalizing low high with
  | h size ih =>
      rw [searchBetween]
      by_cases hlow : low < high
      · have hmiddle : (low + high) / 2 < table.length := by omega
        obtain ⟨entry, hentry⟩ : ∃ entry, table[(low + high) / 2]? =
            some entry :=
          ⟨_, List.getElem?_eq_getElem hmiddle⟩
        have hget : table.getD ((low + high) / 2) 0 = entry := by
          rw [List.getD_eq_getElem?_getD, hentry, Option.getD_some]
        simp only [if_pos hlow, hget]
        split
        · next hless =>
            refine ih _ (by omega) (by omega) hmiddle.le hbelow
              (fun i m hm hi => ?_) rfl
            rcases Nat.eq_or_lt_of_le hi with rfl | hi
            · rw [hentry, Option.some.injEq] at hm
              omega
            · exact hless.trans (lt_of_getElem? hsorted hentry hm hi)
        · next hnotLess =>
            split
            · next hsame =>
                rw [Slot.IsFor, hsame]
                exact hentry
            · next hother =>
                refine ih _ (by omega) (by omega) hhigh (fun i m hm hi => ?_)
                  habove rfl
                rcases Nat.eq_or_lt_of_le (Nat.le_of_lt_succ hi) with rfl | hi
                · rw [hentry, Option.some.injEq] at hm
                  omega
                · have hless := lt_of_getElem? hsorted hm hentry hi
                  omega
      · have hsame : high = low := by omega
        rw [if_neg hlow]
        exact ⟨hle.trans hhigh,
          fun i m hm => ⟨hbelow i m hm, hsame ▸ habove i m hm⟩⟩

/-- The index of the last entry that is not above the number. -/
def Slot.lastIndex : Slot → Nat
  | .found index => index
  | .missing index => index - 1

theorem Slot.lastIndex_eq {front back : List Nat} {last : Nat} {slot : Slot}
    (hsorted : (front ++ last :: back).Pairwise (· < ·)) (hlast : last ≤ n)
    (hback : ∀ m ∈ back, n < m) (hslot : slot.IsFor (front ++ last :: back) n) :
    slot.lastIndex = front.length := by
  have hgetLast : (front ++ last :: back)[front.length]? = some last := by simp
  have hgetBack {i m : Nat} (hi : front.length < i)
        (hm : (front ++ last :: back)[i]? = some m) :
      n < m := by
    obtain ⟨k, rfl⟩ := Nat.exists_eq_add_of_lt hi
    rw [List.getElem?_append_right (by omega), Nat.add_assoc,
      Nat.add_sub_cancel_left, List.getElem?_cons_succ] at hm
    exact hback m (List.mem_of_getElem? hm)
  cases slot with
  | found index =>
      have hfound : (front ++ last :: back)[index]? = some n := hslot
      rcases Nat.lt_trichotomy index front.length with hindex | hindex | hindex
      · have hless := lt_of_getElem? hsorted hfound hgetLast hindex
        omega
      · exact hindex
      · exact absurd (hgetBack hindex hfound) (Nat.lt_irrefl n)
  | missing index =>
      obtain ⟨hlength, hslot⟩ := hslot
      have hpast : front.length < index := by
        by_contra hindex
        have hmore := (hslot _ _ hgetLast).2 (by omega)
        omega
      have hnext : ¬ front.length + 1 < index := by
        intro hindex
        obtain ⟨m, hm⟩ :
            ∃ m, (front ++ last :: back)[front.length + 1]? = some m :=
          ⟨_, List.getElem?_eq_getElem (by omega)⟩
        have hless := (hslot _ _ hm).1 hindex
        have hmore := hgetBack (Nat.lt_succ_self _) hm
        omega
      rw [lastIndex]
      omega

end Search

/-- The characters between two offsets in bytes, if both can be cut at. -/
def slice? (source : List Char) (start stop : Nat) : Option (List Char) :=
  if start ≤ stop then do
    let (_, rest) ← splitAtByte? start source
    let (text, _) ← splitAtByte? (stop - start) rest
    return text
  else none

theorem byteCount_cons (c : Char) (cs : List Char) :
    byteCount (c :: cs) = byteCount [c] + byteCount cs :=
  byteCount_append [c] cs

theorem byteCount_le_append (cs ds : List Char) :
    byteCount cs ≤ byteCount (cs ++ ds) := by
  rw [byteCount_append]
  exact Nat.le_add_right _ _

theorem byteCount_single_pos (c : Char) : 0 < byteCount [c] := by
  simp [byteCount, c.utf8Size_pos]

theorem splitAtByte?_append (cs rest : List Char) :
    splitAtByte? (byteCount cs) (cs ++ rest) = some (cs, rest) := by
  induction cs with
  | nil => rw [byteCount_nil, splitAtByte?, List.nil_append]
  | cons c cs ih =>
      obtain ⟨n, hn⟩ : ∃ n, byteCount [c] + byteCount cs = n + 1 :=
        Nat.exists_eq_add_one_of_ne_zero
          (by have := byteCount_single_pos c; omega)
      rw [byteCount_cons, hn, List.cons_append, splitAtByte?,
        if_pos (by omega), ← hn, Nat.add_sub_cancel_left, ih]
      rfl

theorem slice?_append (before text after : List Char) :
    slice? (before ++ text ++ after) (byteCount before)
        (byteCount before + byteCount text) =
      some text := by
  rw [slice?, if_pos (Nat.le_add_right _ _), Nat.add_sub_cancel_left,
    List.append_assoc, splitAtByte?_append]
  simp only [Option.pure_def, Option.bind_eq_bind, Option.bind_some,
    splitAtByte?_append]

/-- A text can be cut at an offset just if the offset lies between two
characters. -/
theorem splitAtByte?_eq_some_iff {n : Nat} {cs front rest : List Char} :
    splitAtByte? n cs = some (front, rest) ↔ cs = front ++ rest ∧
      n = byteCount front := by
  constructor
  · intro hsplit
    induction cs generalizing n front with
    | nil =>
        cases n with
        | zero =>
            rw [splitAtByte?, Option.some.injEq, Prod.mk.injEq] at hsplit
            obtain ⟨rfl, rfl⟩ := hsplit
            exact ⟨rfl, rfl⟩
        | succ n => contradiction
    | cons c cs ih =>
        cases n with
        | zero =>
            rw [splitAtByte?, Option.some.injEq, Prod.mk.injEq] at hsplit
            obtain ⟨rfl, rfl⟩ := hsplit
            exact ⟨rfl, rfl⟩
        | succ n =>
            rw [splitAtByte?] at hsplit
            split at hsplit
            · next hfits =>
                obtain ⟨⟨others, rest⟩, hothers, ⟨⟩⟩ :=
                  Option.map_eq_some_iff.mp hsplit
                obtain ⟨rfl, hcount⟩ := ih hothers
                refine ⟨rfl, ?_⟩
                show n + 1 = byteCount (c :: others)
                rw [byteCount_cons, ← hcount, Nat.add_sub_cancel' hfits]
            · contradiction
  · rintro ⟨rfl, rfl⟩
    exact splitAtByte?_append front rest

/-- There is a slice between two offsets just if the text can be cut at both, in
this order. -/
theorem slice?_eq_some_iff {source text : List Char} {start stop : Nat} :
    slice? source start stop = some text ↔
      ∃ before after, source = before ++ text ++ after ∧
      start = byteCount before ∧
        stop = start + byteCount text := by
  constructor
  · intro hslice
    unfold slice? at hslice
    split at hslice
    · next hle =>
        obtain ⟨⟨before, rest⟩, hbefore, hslice⟩ :=
          Option.bind_eq_some_iff.mp hslice
        obtain ⟨⟨inside, after⟩, hinside, ⟨⟩⟩ :=
          Option.bind_eq_some_iff.mp hslice
        obtain ⟨rfl, rfl⟩ := splitAtByte?_eq_some_iff.mp hbefore
        obtain ⟨rfl, hcount⟩ := splitAtByte?_eq_some_iff.mp hinside
        refine ⟨before, after, ?_, rfl, ?_⟩
        · rw [List.append_assoc]
        · omega
    · contradiction
  · rintro ⟨before, after, rfl, rfl, rfl⟩
    exact slice?_append before text after

/-- The offsets in bytes of the line feeds of a text that begins at the given
offset. -/
def lineFeedsFrom (offset : Nat) : List Char → List Nat
  | [] => []
  | c :: rest =>
      if c = '\n' then offset :: lineFeedsFrom (offset + byteCount [c]) rest
      else lineFeedsFrom (offset + byteCount [c]) rest

section LineFeeds

variable {cs : List Char} {offset i : Nat}

theorem lineFeedsFrom_append (offset : Nat) (cs ds : List Char) :
    lineFeedsFrom offset (cs ++ ds) =
      lineFeedsFrom offset cs ++ lineFeedsFrom (offset + byteCount cs) ds := by
  induction cs generalizing offset with
  | nil => rfl
  | cons c cs ih =>
      rw [List.cons_append, lineFeedsFrom, lineFeedsFrom, ih,
        byteCount_cons c cs, Nat.add_assoc]
      split <;> rfl

theorem length_lineFeedsFrom (offset : Nat) (cs : List Char) :
    (lineFeedsFrom offset cs).length = cs.count '\n' := by
  induction cs generalizing offset with
  | nil => rfl
  | cons c cs ih =>
      rw [lineFeedsFrom, List.count_cons]
      split
      · next hc => simp [ih, hc]
      · next hc => simp [ih, hc]

theorem bounds_of_mem_lineFeedsFrom (hi : i ∈ lineFeedsFrom offset cs) :
    offset ≤ i ∧ i < offset + byteCount cs := by
  induction cs generalizing offset with
  | nil => contradiction
  | cons c cs ih =>
      have hpos := byteCount_single_pos c
      rw [byteCount_cons]
      rw [lineFeedsFrom] at hi
      split at hi
      · rcases List.mem_cons.mp hi with rfl | hi
        · omega
        · have := ih hi
          omega
      · have := ih hi
        omega

theorem pairwise_lineFeedsFrom (offset : Nat) (cs : List Char) :
    (lineFeedsFrom offset cs).Pairwise (· < ·) := by
  induction cs generalizing offset with
  | nil => exact List.Pairwise.nil
  | cons c cs ih =>
      rw [lineFeedsFrom]
      split
      · refine List.Pairwise.cons (fun i hi => ?_) (ih _)
        have hpos := byteCount_single_pos c
        have hbounds := bounds_of_mem_lineFeedsFrom hi
        omega
      · exact ih _

end LineFeeds

theorem Position.line_advance (p : Position) (cs : List Char) :
    (p.advance cs).line = p.line + cs.count '\n' := by
  induction cs generalizing p with
  | nil => rfl
  | cons c cs ih =>
      rw [Position.advance_cons, ih, Position.after, List.count_cons]
      by_cases hc : c = '\n'
      · simp only [hc, if_true, beq_self_eq_true]
        omega
      · simp [hc]

theorem Position.advance_of_unbroken {line : List Char} (hline : '\n' ∉ line)
    (p : Position) : p.advance line = ⟨p.line, p.column + line.length⟩ := by
  induction line generalizing p with
  | nil => rfl
  | cons c line ih =>
      rw [List.mem_cons, not_or] at hline
      have hafter : p.after c = ⟨p.line, p.column + 1⟩ :=
        if_neg (Ne.symm hline.1)
      rw [Position.advance_cons, ih hline.2, hafter, List.length_cons,
        Nat.add_assoc, Nat.add_comm 1]

/-- A text with nothing on its last line is empty or ends with a line feed. -/
def EndsLine (cs : List Char) : Prop :=
  ∀ c ∈ cs.getLast?, c = '\n'

theorem endsLine_concat_iff {c : Char} (front : List Char) :
    EndsLine (front ++ [c]) ↔ c = '\n' := by
  simp [EndsLine]

theorem EndsLine.eq_nil_or_concat {cs : List Char} (hcs : EndsLine cs) :
    cs = [] ∨ ∃ front, cs = front ++ ['\n'] := by
  rcases cs.eq_nil_or_concat with rfl | ⟨front, c, rfl⟩
  · exact Or.inl rfl
  · rw [List.concat_eq_append, endsLine_concat_iff] at hcs
    exact Or.inr ⟨front, by rw [hcs, List.concat_eq_append]⟩

/-- Every text is whole lines and then a last line that has no end. -/
theorem exists_lastLine (cs : List Char) :
    ∃ head line, cs = head ++ line ∧ EndsLine head ∧ '\n' ∉ line := by
  induction cs using List.reverseRecOn with
  | nil => exact ⟨[], [], rfl, by simp [EndsLine], by simp⟩
  | append_singleton cs c ih =>
      by_cases hc : c = '\n'
      · exact ⟨cs ++ [c], [], by simp, by simp [EndsLine, hc], by simp⟩
      · obtain ⟨head, line, rfl, hhead, hline⟩ := ih
        exact ⟨head, line ++ [c], by simp, hhead, by simp [hline, Ne.symm hc]⟩

theorem Position.column_advance_of_endsLine {cs : List Char}
    (hcs : EndsLine cs) : (Position.start.advance cs).column = 1 := by
  rcases hcs.eq_nil_or_concat with rfl | ⟨front, rfl⟩
  · rfl
  · rw [Position.advance_append]
    rfl

/-- A source text with the offsets in bytes at which its lines start. -/
structure LineTable where
  source : List Char
  starts : List Nat

namespace LineTable

/-- The table of a text: the first line starts at its start, every other after a
line feed. -/
def of (source : List Char) : LineTable :=
  ⟨source, 0 :: (lineFeedsFrom 0 source).map (· + 1)⟩

/-- The place of an offset, or of the end of the text if that comes first.  An
offset within a character has its distance from the start of the line for a
column. -/
def position (table : LineTable) (offset : Nat) : Position :=
  let offset := min offset (byteCount table.source)
  let line :=
    (searchBetween table.starts offset 0 table.starts.length).lastIndex
  let lineStart := table.starts.getD line 0
  let column :=
    match slice? table.source lineStart offset with
    | some text => text.length
    | none => offset - lineStart
  ⟨line + 1, column + 1⟩

theorem pairwise_starts (source : List Char) :
    (of source).starts.Pairwise (· < ·) := by
  refine List.Pairwise.cons ?_ ?_
  · intro start hstart
    obtain ⟨i, _, rfl⟩ := List.mem_map.mp hstart
    exact Nat.succ_pos i
  · rw [List.pairwise_map]
    exact (pairwise_lineFeedsFrom 0 source).imp Nat.succ_lt_succ

theorem starts_append (cs ds : List Char) :
    (of (cs ++ ds)).starts =
      (of cs).starts ++ (lineFeedsFrom (byteCount cs) ds).map (· + 1) := by
  simp [of, lineFeedsFrom_append]

/-- A last line with nothing on it starts where the text ends. -/
theorem exists_starts_eq {head : List Char} (hhead : EndsLine head) :
    ∃ front, front.length = head.count '\n' ∧
      (of head).starts = front ++ [byteCount head] := by
  rcases hhead.eq_nil_or_concat with rfl | ⟨front, rfl⟩
  · exact ⟨[], rfl, rfl⟩
  · refine ⟨(of front).starts, ?_, ?_⟩
    · simp [of, length_lineFeedsFrom]
    · rw [starts_append, byteCount_append]
      rfl

/-- The entry of the last line that a front of the text reaches, between the
entries of the lines before it and those of the lines after it. -/
theorem exists_starts_append {head line : List Char} (hhead : EndsLine head)
    (hline : '\n' ∉ line) (after : List Char) :
    ∃ front back, front.length = head.count '\n' ∧
      (of (head ++ line ++ after)).starts = front ++ byteCount head :: back ∧
        ∀ start ∈ back, byteCount (head ++ line) < start := by
  obtain ⟨front, hlength, hfront⟩ := exists_starts_eq hhead
  refine ⟨front, (lineFeedsFrom (byteCount head) (line ++ after)).map (· + 1),
    hlength, ?_, ?_⟩
  · rw [List.append_assoc, starts_append, hfront, List.append_assoc,
      List.singleton_append]
  · intro start hstart
    obtain ⟨i, hi, rfl⟩ := List.mem_map.mp hstart
    have hnone : lineFeedsFrom (byteCount head) line = [] := by
      rw [← List.length_eq_zero_iff, length_lineFeedsFrom, List.count_eq_zero]
      exact hline
    rw [lineFeedsFrom_append, hnone, List.nil_append, ← byteCount_append] at hi
    exact Nat.lt_succ_of_le (bounds_of_mem_lineFeedsFrom hi).1

/-- Where the search for the line of an offset ends. -/
def slot (table : LineTable) (offset : Nat) : Slot :=
  searchBetween table.starts (min offset (byteCount table.source)) 0
    table.starts.length

/-- The offset at which the line of an offset starts. -/
def lineStart (table : LineTable) (offset : Nat) : Nat :=
  table.starts.getD (table.slot offset).lastIndex 0

theorem position_eq (table : LineTable) (offset : Nat) :
    table.position offset =
      ⟨(table.slot offset).lastIndex + 1,
       (match slice? table.source (table.lineStart offset)
          (min offset (byteCount table.source)) with
        | some text => text.length
        | none =>
            min offset (byteCount table.source) -
              table.lineStart offset) + 1⟩ :=
  rfl

theorem slot_isFor (source : List Char) (offset : Nat) :
    ((of source).slot offset).IsFor (of source).starts
      (min offset (byteCount source)) :=
  searchBetween_isFor (pairwise_starts source) (Nat.zero_le _) (Nat.le_refl _)
    (fun _ _ _ hi => absurd hi (Nat.not_lt_zero _)) fun i m hm hi => by
      rw [List.getElem?_eq_none hi] at hm
      contradiction

section LastLine

variable {head line : List Char} (hhead : EndsLine head) (hline : '\n' ∉ line)
  (after : List Char)

include hhead hline

/-- The line of an offset counts the line feeds before it, and starts after the
last of them. -/
theorem line_append :
    ((of (head ++ line ++ after)).slot (byteCount (head ++ line))).lastIndex =
        head.count '\n' ∧
      (of (head ++ line ++ after)).lineStart (byteCount (head ++ line)) =
        byteCount head := by
  obtain ⟨front, back, hlength, hstarts, hback⟩ :=
    exists_starts_append hhead hline after
  have hsorted := pairwise_starts (head ++ line ++ after)
  have hoffset :
      min (byteCount (head ++ line)) (byteCount (head ++ line ++ after)) =
        byteCount (head ++ line) :=
    Nat.min_eq_left (byteCount_le_append (head ++ line) after)
  have hslot := slot_isFor (head ++ line ++ after) (byteCount (head ++ line))
  rw [hstarts] at hsorted hslot
  rw [hoffset] at hslot
  have hindex :=
    Slot.lastIndex_eq hsorted (byteCount_le_append head line) hback hslot
  refine ⟨hindex.trans hlength, ?_⟩
  rw [lineStart, hindex, hstarts]
  simp

theorem slice?_lineStart :
    slice? (head ++ line ++ after)
        ((of (head ++ line ++ after)).lineStart (byteCount (head ++ line)))
        (byteCount (head ++ line)) = some line := by
  rw [(line_append hhead hline after).2, byteCount_append]
  exact slice?_append head line after

end LastLine

/-- The place of an offset that is the length of a front of the text is the
place that reading the front leads to. -/
theorem position_byteCount (before after : List Char) :
    (of (before ++ after)).position (byteCount before) =
      Position.start.advance before := by
  obtain ⟨head, line, rfl, hhead, hline⟩ := exists_lastLine before
  have hindex := (line_append hhead hline after).1
  have hslice := slice?_lineStart hhead hline after
  have hoffset :
      min (byteCount (head ++ line)) (byteCount (head ++ line ++ after)) =
        byteCount (head ++ line) :=
    Nat.min_eq_left (byteCount_le_append (head ++ line) after)
  have hsource : (of (head ++ line ++ after)).source =
      head ++ line ++ after := rfl
  have hstartLine : Position.start.line = 1 := rfl
  rw [position_eq]
  simp only [hsource, hoffset, hslice]
  rw [hindex, Position.advance_append, Position.advance_of_unbroken hline,
    Position.column_advance_of_endsLine hhead, Position.line_advance,
    hstartLine, Nat.add_comm 1, Nat.add_comm 1]

/-- Columns count characters, also where these take two bytes. -/
example :
    let table := of "a\néé<x>\n".toList
    table.position 6 = ⟨2, 3⟩ ∧ table.position 9 = ⟨2, 6⟩ ∧
      table.position 10 = ⟨3, 1⟩ := by
  decide +kernel

variable {source front : List Char}

/-- Lines count from one, and each line feed before an offset ends one of
them. -/
theorem line_position (hfront : front <+: source) :
    ((of source).position (byteCount front)).line = front.count '\n' + 1 := by
  obtain ⟨after, rfl⟩ := hfront
  rw [position_byteCount, Position.line_advance, Nat.add_comm]
  rfl

end LineTable

/-- The offsets of the line feeds that lie between two offsets, whichever comes
first. -/
def lineFeedsBetween (source : List Char) (d e : Nat) : List Nat :=
  (lineFeedsFrom 0 source).filter fun i => min d e ≤ i ∧ i < max d e

theorem lineFeedsBetween_comm (source : List Char) (d e : Nat) :
    lineFeedsBetween source d e = lineFeedsBetween source e d := by
  rw [lineFeedsBetween, lineFeedsBetween, Nat.min_comm, Nat.max_comm]

theorem lineFeedsBetween_append (before text after : List Char) :
    lineFeedsBetween (before ++ text ++ after) (byteCount before)
        (byteCount (before ++ text)) =
      lineFeedsFrom (byteCount before) text := by
  have hle := byteCount_le_append before text
  have hbefore : (lineFeedsFrom 0 before).filter
      (fun i => byteCount before ≤ i ∧ i < byteCount (before ++ text)) =
      [] := by
    rw [List.filter_eq_nil_iff]
    intro i hi
    have hbounds := bounds_of_mem_lineFeedsFrom hi
    simp only [decide_eq_true_eq]
    omega
  have htext : (lineFeedsFrom (byteCount before) text).filter
      (fun i => byteCount before ≤ i ∧ i < byteCount (before ++ text)) =
        lineFeedsFrom (byteCount before) text := by
    rw [List.filter_eq_self]
    intro i hi
    rw [decide_eq_true_eq, byteCount_append]
    exact bounds_of_mem_lineFeedsFrom hi
  have hafter : (lineFeedsFrom (byteCount (before ++ text)) after).filter
      (fun i => byteCount before ≤ i ∧ i < byteCount (before ++ text)) =
      [] := by
    rw [List.filter_eq_nil_iff]
    intro i hi
    have hbounds := bounds_of_mem_lineFeedsFrom hi
    simp only [decide_eq_true_eq]
    omega
  rw [lineFeedsBetween, Nat.min_eq_left hle, Nat.max_eq_right hle,
    lineFeedsFrom_append, lineFeedsFrom_append, Nat.zero_add, Nat.zero_add,
    List.filter_append, List.filter_append, hbefore, htext, hafter,
    List.nil_append, List.append_nil]

section Between

variable {source a b : List Char}

theorem count_add_length_lineFeedsBetween (hab : a <+: b) (hb : b <+: source) :
    a.count '\n' +
      (lineFeedsBetween source (byteCount a) (byteCount b)).length =
      b.count '\n' := by
  obtain ⟨text, rfl⟩ := hab
  obtain ⟨after, rfl⟩ := hb
  rw [lineFeedsBetween_append, length_lineFeedsFrom, List.count_append]

/-- Two places are on one line if no line feed lies between them. -/
theorem count_eq_iff (ha : a <+: source) (hb : b <+: source) :
    b.count '\n' = a.count '\n' ↔
      lineFeedsBetween source (byteCount a) (byteCount b) = [] := by
  rw [← List.length_eq_zero_iff]
  rcases List.prefix_or_prefix_of_prefix ha hb with hab | hba
  · have hcount := count_add_length_lineFeedsBetween hab hb
    omega
  · have hcount := count_add_length_lineFeedsBetween hba ha
    rw [lineFeedsBetween_comm] at hcount
    omega

/-- A place is on the next line if it comes later and one line feed lies
between. -/
theorem count_eq_succ_iff (ha : a <+: source) (hb : b <+: source) :
    b.count '\n' = a.count '\n' + 1 ↔
      byteCount a < byteCount b ∧
        (lineFeedsBetween source (byteCount a) (byteCount b)).length = 1 := by
  rcases List.prefix_or_prefix_of_prefix ha hb with hab | hba
  · have hcount := count_add_length_lineFeedsBetween hab hb
    constructor
    · intro hnext
      refine ⟨?_, by omega⟩
      obtain ⟨text, rfl⟩ := hab
      cases text with
      | nil => simp at hnext
      | cons c text =>
          have hpos := byteCount_single_pos c
          rw [byteCount_append, byteCount_cons]
          omega
    · rintro ⟨_, hone⟩
      omega
  · have hcount := count_add_length_lineFeedsBetween hba ha
    obtain ⟨text, rfl⟩ := hba
    have hle := byteCount_le_append b text
    constructor
    · intro hnext
      omega
    · rintro ⟨hless, _⟩
      omega

end Between

end WebConfigAudit.Text
