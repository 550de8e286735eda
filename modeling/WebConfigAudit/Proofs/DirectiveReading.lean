import Mathlib.Data.List.TakeWhile
import WebConfigAudit.Proofs.TextSearch
import WebConfigAudit.Suppression.Directive
/-!
Reading directives line by line.  Blanks at the end of a line play no part, so
it does not matter which of the two line ends a line has, and a text may be read
as its first line and the rest.
-/

namespace WebConfigAudit

open Text (isBlank trimStart)

namespace Directive

variable {cs : List Char} {c : Char}

theorem not_blank_of_all {word : List Char}
    (hword : word.all (fun x => !isBlank x) = true) :
    ∀ x ∈ word, isBlank x = false := by
  simpa using hword

theorem not_mem_of_isBlank {word : List Char}
    (hword : ∀ x ∈ word, isBlank x = false) (hc : isBlank c = true) :
    c ∉ word := by
  intro hmem
  rw [hword c hmem] at hc
  contradiction

theorem opening_not_blank : ∀ x ∈ opening, isBlank x = false :=
  not_blank_of_all (by decide)

theorem closing_not_blank : ∀ x ∈ closing, isBlank x = false :=
  not_blank_of_all (by decide)

theorem marker_not_blank : ∀ x ∈ marker, isBlank x = false :=
  not_blank_of_all (by decide)

theorem readReason?_concat (hc : isBlank c = true) (cs : List Char) :
    readReason? (cs ++ [c]) = readReason? cs := by
  have hclosing : c ∉ closing := not_mem_of_isBlank closing_not_blank hc
  unfold readReason?
  cases hcs : trimStart cs with
  | nil => rw [Text.trimStart_concat_of_eq_nil hc hcs]
  | cons x rest =>
      rw [Text.trimStart_concat (by simp [hcs]), hcs, List.cons_append]
      have hbegins : closing.isPrefixOf ('-' :: (rest ++ [c])) =
          closing.isPrefixOf ('-' :: rest) := by
        rw [← List.cons_append, Text.isPrefixOf_concat hclosing]
      have hreason : Text.before? closing (trimStart (rest ++ [c])) =
          Text.before? closing (trimStart rest) := by
        by_cases hrest : trimStart rest = []
        · rw [Text.trimStart_concat_of_eq_nil hc hrest, hrest]
        · rw [Text.trimStart_concat hrest,
            Text.before?_concat (by decide) hclosing]
      split
      · next heq =>
          cases heq
          simp only [hreason, hbegins]
      · next hother =>
          split
          · next heq =>
              cases heq
              exact absurd rfl (hother _)
          · rfl

theorem readRule?_concat (hc : isBlank c = true) (word after : List Char)
    (length : Nat) :
    readRule? word (after ++ [c]) length = readRule? word after length := by
  induction length with
  | zero => rfl
  | succ length ih =>
      rw [readRule?, readRule?, ← List.append_assoc, readReason?_concat hc, ih]

theorem readWord?_concat (hc : isBlank c = true) (cs : List Char) :
    readWord? (cs ++ [c]) = (readWord? cs).map fun found =>
      (found.1, found.2 ++ [c]) := by
  have hword (word : List Char) (hplain : ∀ x ∈ word, isBlank x = false)
        (cs : List Char) :
      Text.after? word (cs ++ [c]) = (Text.after? word cs).map (· ++ [c]) :=
    Text.after?_concat (not_mem_of_isBlank hplain hc) cs
  unfold readWord?
  rw [hword _ (not_blank_of_all (by decide))]
  cases Text.after? "ignore".toList cs with
  | none => rfl
  | some rest =>
      simp only [Option.map_some, Option.bind_eq_bind, Option.bind_some]
      rw [hword _ (not_blank_of_all (by decide)),
        hword _ (not_blank_of_all (by decide))]
      cases Text.after? "-file".toList rest with
      | some rest => rfl
      | none =>
          cases Text.after? "-next-line".toList rest with
          | some rest => rfl
          | none => rfl

/-- What `readHere?` makes of the text after a directive word. -/
def readBody? (word : DirectiveWord) (rest : List Char) : Option Directive :=
  if (rest.takeWhile isBlank).isEmpty then none
  else
    let name := (trimStart rest).takeWhile fun c => !isBlank c
    (readRule? name ((trimStart rest).drop name.length) name.length).map
      fun found =>
        ⟨[], word, found.1, found.2⟩

theorem readHere?_eq (cs : List Char) :
    readHere? cs =
      (Text.after? opening cs).bind fun rest =>
        (Text.after? marker (trimStart rest)).bind fun rest =>
          (readWord? rest).bind fun found => readBody? found.1 found.2 := by
  unfold readHere? readBody?
  cases Text.after? opening cs with
  | none => rfl
  | some rest =>
      cases hmarker : Text.after? marker (trimStart rest) with
      | none => simp [hmarker]
      | some rest =>
          cases hword : readWord? rest with
          | none => simp [hmarker, hword]
          | some found =>
              simp only [Option.bind_eq_bind, Option.bind_some, hmarker, hword]
              split
              · rfl
              · cases readRule? _ _ _ <;> rfl

/-- A comment that is read as a directive has the mark after its opening, with
only blanks between. -/
theorem exists_of_readHere? {d : Directive} (hread : readHere? cs = some d) :
    ∃ gap rest, cs = opening ++ gap ++ marker ++ rest ∧
      ∀ c ∈ gap, isBlank c = true := by
  rw [readHere?_eq] at hread
  obtain ⟨inside, hopening, hread⟩ := Option.bind_eq_some_iff.mp hread
  obtain ⟨rest, hmarker, _⟩ := Option.bind_eq_some_iff.mp hread
  rw [Text.after?_eq_some_iff] at hopening hmarker
  refine ⟨inside.takeWhile isBlank, rest, ?_,
    fun c hc => List.mem_takeWhile_imp hc⟩
  have hinside : inside.takeWhile isBlank ++ trimStart inside = inside :=
    List.takeWhile_append_dropWhile
  rw [hopening, List.append_assoc, List.append_assoc, ← hmarker, hinside]

theorem readBody?_concat (hc : isBlank c = true) (word : DirectiveWord)
    (rest : List Char) :
    readBody? word (rest ++ [c]) = readBody? word rest := by
  unfold readBody?
  by_cases hrest : trimStart rest = []
  · -- there is no rule name, with the blank or without it
    have hnothing : readRule? [] [] 0 = none := rfl
    simp [hrest, Text.trimStart_concat_of_eq_nil hc hrest, hnothing]
  · have hblanks : ((rest ++ [c]).takeWhile isBlank).isEmpty =
        (rest.takeWhile isBlank).isEmpty := by
      cases rest with
      | nil => exact absurd rfl hrest
      | cons x rest =>
          rw [List.cons_append, List.takeWhile_cons, List.takeWhile_cons]
          split <;> rfl
    have hlength : ((trimStart rest).takeWhile fun x => !isBlank x).length ≤
        (trimStart rest).length :=
      (List.takeWhile_prefix _).length_le
    simp only [hblanks, Text.trimStart_concat hrest,
      Text.takeWhile_not_blank_concat hc, List.drop_append_of_le_length hlength,
      readRule?_concat hc]

theorem readHere?_concat (hc : isBlank c = true) (cs : List Char) :
    readHere? (cs ++ [c]) = readHere? cs := by
  rw [readHere?_eq, readHere?_eq,
    Text.after?_concat (not_mem_of_isBlank opening_not_blank hc)]
  cases Text.after? opening cs with
  | none => rfl
  | some rest =>
      rw [Option.map_some, Option.bind_some, Option.bind_some]
      by_cases hrest : trimStart rest = []
      · rw [Text.trimStart_concat_of_eq_nil hc hrest, hrest]
      · rw [Text.trimStart_concat hrest,
          Text.after?_concat (not_mem_of_isBlank marker_not_blank hc)]
        cases Text.after? marker (trimStart rest) with
        | none => rfl
        | some rest =>
            rw [Option.map_some, Option.bind_some, Option.bind_some,
              readWord?_concat hc]
            cases readWord? rest with
            | none => rfl
            | some found => exact readBody?_concat hc found.1 found.2

theorem readFrom?_concat (hc : isBlank c = true) (passed cs : List Char) :
    readFrom? passed (cs ++ [c]) = readFrom? passed cs := by
  induction cs generalizing passed with
  | nil =>
      have hnothing : readHere? [c] = none := readHere?_concat hc []
      simp [readFrom?, hnothing]
  | cons x cs ih =>
      rw [List.cons_append, readFrom?, readFrom?, ih, ← List.cons_append,
        readHere?_concat hc]

/-- A blank at the end of a line does not change what is read on it. -/
theorem ofLine?_concat (hc : isBlank c = true) (line : List Char) :
    ofLine? (line ++ [c]) = ofLine? line :=
  readFrom?_concat hc [] line

end Directive

section Lines

variable {line : List Char}

theorem splitLines_lineFeed (passed rest : List Char) :
    Text.splitLines passed ('\n' :: rest) =
      (match passed with
        | '\r' :: front => front
        | front => front).reverse :: Text.splitLines [] rest :=
  (Text.splitLines.eq_def passed ('\n' :: rest)).trans (if_pos rfl)

theorem splitLines_append (hline : '\n' ∉ line) (passed rest : List Char) :
    Text.splitLines passed (line ++ rest) =
      Text.splitLines (line.reverse ++ passed) rest := by
  induction line generalizing passed with
  | nil => rfl
  | cons c line ih =>
      rw [List.mem_cons, not_or] at hline
      have hstep : Text.splitLines passed (c :: (line ++ rest)) =
          Text.splitLines (c :: passed) (line ++ rest) :=
        (Text.splitLines.eq_def passed (c :: (line ++ rest))).trans
          (if_neg (Ne.symm hline.1))
      rw [List.cons_append, hstep, ih hline.2, List.reverse_cons,
        List.append_assoc, List.singleton_append]

/-- The suppression of a line with the given number, if it holds a directive. -/
def lineSuppression? (file : String) (number : Nat) (line : List Char) :
    Option Suppression :=
  (Directive.ofLine? line).map fun d => d.suppression file number

theorem suppressionsOfLines_cons (file : String) (number : Nat)
    (line : List Char) (lines : List (List Char)) :
    suppressionsOfLines file number (line :: lines) =
      (lineSuppression? file number line).toList ++
        suppressionsOfLines file (number + 1) lines := by
  rw [suppressionsOfLines, lineSuppression?]
  cases Directive.ofLine? line <;> rfl

/-- The suppressions of a text whose first line has the given number. -/
def suppressionsFrom (file : String) (number : Nat) (cs : List Char) :
    List Suppression :=
  suppressionsOfLines file number (Text.linesOf cs)

theorem suppressionsFrom_of_single (file : String) (number : Nat)
    (hline : '\n' ∉ line) :
    suppressionsFrom file number line =
      (lineSuppression? file number line).toList := by
  have hsplit := splitLines_append hline [] []
  rw [List.append_nil, List.append_nil] at hsplit
  rw [suppressionsFrom, Text.linesOf, hsplit, Text.splitLines]
  split
  · next hempty =>
      rw [List.isEmpty_iff, List.reverse_eq_nil_iff] at hempty
      rw [hempty]
      rfl
  · rw [List.reverse_reverse, suppressionsOfLines_cons, suppressionsOfLines,
      List.append_nil]

/-- A text is read as its first line and the rest.  A carriage return at the end
of the line may be taken for a part of the line. -/
theorem suppressionsFrom_append (file : String) (number : Nat)
    (hline : '\n' ∉ line) (rest : List Char) :
    suppressionsFrom file number (line ++ '\n' :: rest) =
      (lineSuppression? file number line).toList ++
        suppressionsFrom file (number + 1) rest := by
  rw [suppressionsFrom, Text.linesOf, splitLines_append hline, List.append_nil,
    splitLines_lineFeed, suppressionsOfLines_cons]
  split
  · next front heq =>
      have hreturn : line = front.reverse ++ ['\r'] := by
        rw [← List.reverse_cons, ← heq, List.reverse_reverse]
      have hblank : isBlank '\r' = true := by decide
      rw [hreturn, lineSuppression?, lineSuppression?,
        Directive.ofLine?_concat hblank]
      rfl
  · rw [List.reverse_reverse]
    rfl

end Lines

end WebConfigAudit
