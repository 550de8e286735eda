import Mathlib.Data.List.TakeWhile
import WebConfigAudit.Proofs.DirectiveReading
/-!
Directives as people write them, on lines of their own or behind other text, and
what is read of a document of such lines: every directive again, with its rule,
its reason and the line it stands on.
-/

namespace WebConfigAudit

open Text (isBlank trimStart trimEnd)

/-- How the directive is written. -/
def DirectiveWord.text : DirectiveWord → String
  | .ignore => "ignore"
  | .ignoreFile => "ignore-file"
  | .ignoreNextLine => "ignore-next-line"

/-- A line with a directive as it is written: what comes before the comment, the
directive word, the rule, a reason if there is one, and what comes after the
comment.  The text after it closes no other comment. -/
structure WrittenDirective where
  before : List Char
  word : DirectiveWord
  rule : List Char
  reason : Option (List Char)
  after : List Char
  before_unmarked : ¬ Directive.marker <:+: before
  rule_ne_nil : rule ≠ []
  rule_not_blank : ∀ c ∈ rule, isBlank c = false
  reason_ne_nil : ∀ r ∈ reason, r ≠ []
  reason_trimmed : ∀ r ∈ reason, Text.trimChars r = r
  reason_open : ∀ r ∈ reason, ¬ Directive.closing <:+: r
  after_open : ¬ Directive.closing <:+: after
  unbroken : '\n' ∉ before ++ reason.getD [] ++ after

namespace WrittenDirective

variable (d : WrittenDirective)

/-- What comes after the rule, up to the end of the line. -/
def afterRule : List Char :=
  match d.reason with
  | none => " -->".toList ++ d.after
  | some reason => " - ".toList ++ reason ++ " -->".toList ++ d.after

/-- The line from the opening of the comment on. -/
def fromComment : List Char :=
  "<!-- webcfg-guard:".toList ++ d.word.text.toList ++ ' ' :: d.rule ++
    d.afterRule

/-- The characters of the line. -/
def chars : List Char :=
  d.before ++ d.fromComment

/-- What the directive covers: a plain one with nothing but blanks before it the
next line. -/
def scope : Scope :=
  match d.word with
  | .ignoreFile => .file
  | .ignoreNextLine => .nextLine
  | .ignore => if d.before.all isBlank then .nextLine else .line

/-- The suppression that the directive means on the line of a file with the
given number. -/
def suppression (file : String) (number : Nat) : Suppression where
  rule := String.ofList d.rule
  reason := String.ofList (d.reason.getD [])
  file := file
  line := match d.word with
    | .ignoreFile => 0
    | _ => number
  scope := d.scope

end WrittenDirective

/-- A line of a document: one that does not have the mark of directives, or one
with a directive. -/
inductive WrittenLine where
  | plain (chars : List Char) (unmarked : ¬ Directive.marker <:+: chars)
      (unbroken : '\n' ∉ chars)
  | directive (d : WrittenDirective)

namespace WrittenLine

/-- The characters of the line, without its end. -/
def chars : WrittenLine → List Char
  | .plain chars _ _ => chars
  | .directive d => d.chars

/-- The suppression that the line with the given number means, if it has a
directive. -/
def suppression? (file : String) (number : Nat) :
    WrittenLine → Option Suppression
  | .plain _ _ _ => none
  | .directive d => some (d.suppression file number)

end WrittenLine

/-- What ends a line: a line feed, alone or after a carriage return. -/
inductive LineEnd where
  | lineFeed
  | returnLineFeed

/-- The characters of a line end. -/
def LineEnd.chars : LineEnd → List Char
  | .lineFeed => ['\n']
  | .returnLineFeed => ['\r', '\n']

/-- The text of lines, each with the end that stands after it if there is a next
one. -/
def joinLines : List (WrittenLine × LineEnd) → List Char
  | [] => []
  | [(line, _)] => line.chars
  | (line, ending) :: next :: rest =>
      line.chars ++ ending.chars ++ joinLines (next :: rest)

namespace Directive

variable {cs rest : List Char}

/-- The front of a directive comment occurs in the text, whether or not the
comment can be read. -/
def Opens (cs : List Char) : Prop :=
  ∃ gap, (∀ c ∈ gap, isBlank c = true) ∧ opening ++ gap ++ marker <:+: cs

theorem not_opens_of_unmarked (hunmarked : ¬ marker <:+: cs) : ¬ Opens cs := by
  rintro ⟨gap, _, hopens⟩
  exact hunmarked
    ((List.suffix_append (opening ++ gap) marker).isInfix.trans hopens)

theorem Opens.mono {ds : List Char} (hopens : Opens cs) (hwithin : cs <:+: ds) :
    Opens ds := by
  obtain ⟨gap, hgap, hfront⟩ := hopens
  exact ⟨gap, hgap, hfront.trans hwithin⟩

theorem readHere?_eq_none_of_not_opens (hopens : ¬ Opens cs) :
    readHere? cs = none := by
  cases hread : readHere? cs with
  | none => rfl
  | some d =>
      obtain ⟨gap, rest, rfl, hgap⟩ := exists_of_readHere? hread
      exact absurd ⟨gap, hgap, [], rest, rfl⟩ hopens

/-- A comment does not begin in a text that opens none and go on over the next
opening bracket. -/
theorem readHere?_eq_none_of_bracket (hne : cs ≠ []) (hopens : ¬ Opens cs)
    (rest : List Char) : readHere? (cs ++ '<' :: rest) = none := by
  cases hread : readHere? (cs ++ '<' :: rest) with
  | none => rfl
  | some d =>
      obtain ⟨gap, tail, hsplit, hgap⟩ := exists_of_readHere? hread
      have hbracket : '<' ∉ ['!', '-', '-'] ++ gap ++ marker := by
        have hblank : '<' ∉ gap := fun hmem =>
          absurd (hgap '<' hmem) (by decide)
        have hmarker : '<' ∉ marker := by decide
        simp [hblank, hmarker]
      rcases List.append_eq_append_iff.mp hsplit with
        ⟨more, hmark, hmore⟩ | ⟨more, rfl, _⟩
      · cases cs with
        | nil => exact absurd rfl hne
        | cons c cs =>
            cases more with
            | nil =>
                rw [List.append_nil] at hmark
                exact absurd ⟨gap, hgap, hmark ▸ List.infix_rfl⟩ hopens
            | cons x more =>
                obtain ⟨rfl, _⟩ := List.cons_eq_cons.mp hmore
                obtain ⟨_, hrest⟩ := List.cons_eq_cons.mp hmark
                refine absurd ?_ hbracket
                rw [show ['!', '-', '-'] ++ gap ++ marker = cs ++ '<' :: more
                  from hrest]
                simp
      · exact absurd ⟨gap, hgap, [], more, rfl⟩ hopens

/-- Places at which nothing can be read are passed over. -/
theorem readFrom?_append
    (hnone : ∀ v, v ≠ [] → v <:+ cs → readHere? (v ++ rest) = none)
    (passed : List Char) :
    readFrom? passed (cs ++ rest) = readFrom? (cs.reverse ++ passed) rest := by
  induction cs generalizing passed with
  | nil => rfl
  | cons c cs ih =>
      have hhere : readHere? (c :: (cs ++ rest)) = none :=
        hnone (c :: cs) (by simp) (List.suffix_refl _)
      have hlater : ∀ v, v ≠ [] → v <:+ cs → readHere? (v ++ rest) = none :=
        fun v hne hv =>
          hnone v hne (hv.trans (List.suffix_cons c cs))
      rw [List.cons_append, readFrom?, hhere, ih hlater, List.reverse_cons,
        List.append_assoc, List.singleton_append]

theorem ofLine?_eq_none (hunmarked : ¬ marker <:+: cs) : ofLine? cs = none := by
  have hnone : ∀ v, v ≠ [] → v <:+ cs → readHere? (v ++ []) = none := by
    intro v _ hv
    rw [List.append_nil]
    exact readHere?_eq_none_of_not_opens fun hopens =>
      not_opens_of_unmarked hunmarked (hopens.mono hv.isInfix)
  have hread := readFrom?_append hnone []
  rw [List.append_nil] at hread
  rw [ofLine?, hread]
  rfl

theorem readWord?_append (word : DirectiveWord) (rest : List Char) :
    readWord? (word.text.toList ++ ' ' :: rest) = some (word, ' ' :: rest) := by
  cases word with
  | ignore => rfl
  | ignoreFile => rfl
  | ignoreNextLine => rfl

/-- The whole word is the name of the rule if what follows can be read. -/
theorem readRule?_length {rule after : List Char} {reason : Option (List Char)}
    (hne : rule ≠ []) (hreason : readReason? after = some reason) :
    readRule? rule after rule.length = some (rule, reason) := by
  cases rule with
  | nil => exact absurd rfl hne
  | cons c rule => simp [readRule?, hreason]

theorem readBody?_append {word : DirectiveWord} {rule more : List Char}
    {reason : Option (List Char)} (hne : rule ≠ [])
    (hrule : ∀ c ∈ rule, isBlank c = false)
    (hreason : readReason? (' ' :: more) = some reason) :
    readBody? word (' ' :: rule ++ ' ' :: more) =
      some ⟨[], word, rule, reason⟩ := by
  have hspace : isBlank ' ' = true := by decide
  have htrim : trimStart (' ' :: rule ++ ' ' :: more) =
      rule ++ ' ' :: more := by
    cases rule with
    | nil => exact absurd rfl hne
    | cons c rule => simp [trimStart, hspace, hrule c List.mem_cons_self]
  have hname : (rule ++ ' ' :: more).takeWhile (fun c => !isBlank c) =
      rule := by
    rw [List.takeWhile_append_of_pos fun c hc => by simp [hrule c hc],
      List.takeWhile_cons_of_neg (by simp [hspace]), List.append_nil]
  have hblanks : ((' ' :: rule ++ ' ' :: more).takeWhile isBlank).isEmpty =
      false := by
    simp [hspace]
  simp only [readBody?, hblanks, htrim, hname, List.drop_left,
    readRule?_length hne hreason]
  rfl

/-- A comment is read from its opening on, with what is read after its rule. -/
theorem readHere?_comment (word : DirectiveWord) {rule more : List Char}
    {reason : Option (List Char)} (hne : rule ≠ [])
    (hrule : ∀ c ∈ rule, isBlank c = false)
    (hreason : readReason? (' ' :: more) = some reason) :
    readHere? ("<!-- webcfg-guard:".toList ++ word.text.toList ++ ' ' :: rule ++
      ' ' :: more) =
      some ⟨[], word, rule, reason⟩ := by
  have hopening : "<!-- webcfg-guard:".toList = opening ++ ' ' :: marker := by
    decide
  have hsplit : "<!-- webcfg-guard:".toList ++ word.text.toList ++ ' ' ::
        rule ++ ' ' :: more =
      opening ++ ' ' ::
        (marker ++ (word.text.toList ++ ' ' :: (rule ++ ' ' :: more))) := by
    rw [hopening]
    simp only [List.append_assoc, List.cons_append]
  have htrim (rest : List Char) : trimStart (' ' :: (marker ++ rest)) =
      marker ++ rest := by
    rw [trimStart, List.dropWhile_cons_of_pos (by decide)]
    exact Text.trimStart_append (by decide) (by decide) rest
  rw [hsplit, readHere?_eq, Text.after?_append, Option.bind_some, htrim,
    Text.after?_append, Option.bind_some, readWord?_append, Option.bind_some]
  exact readBody?_append hne hrule hreason

/-- Without a reason, the hyphens that follow the rule are those of the closing,
unless there is another closing behind it: then the first of them starts a
reason that runs to there. -/
theorem readReason?_closing (after : List Char) :
    readReason? (" -->".toList ++ after) =
      some ((Text.before? closing after).map fun front =>
        Text.trimChars ('-' :: '>' :: front)) := by
  have hbefore : Text.before? closing ('-' :: '>' :: after) =
      (Text.before? closing after).map fun front => '-' :: '>' :: front := by
    have hhyphen : closing.isPrefixOf ('-' :: '>' :: after) = false := by
      simp [closing, List.isPrefixOf]
    have hbracket : closing.isPrefixOf ('>' :: after) = false := by
      simp [closing, List.isPrefixOf]
    rw [Text.before?, hhyphen, Text.before?, hbracket]
    cases Text.before? closing after <;> rfl
  have htrim : trimStart (" -->".toList ++ after) =
      '-' :: '-' :: '>' :: after := rfl
  have htrimRest : trimStart ('-' :: '>' :: after) = '-' :: '>' :: after := rfl
  unfold readReason?
  rw [htrim]
  simp only [htrimRest, hbefore]
  cases Text.before? closing after <;> rfl

/-- A reason that is written is what stands before the next closing, without the
blanks around it. -/
theorem readReason?_reason {reason : List Char}
    (hreason : ¬ closing <:+: reason) (after : List Char) :
    readReason? (" - ".toList ++ reason ++ " -->".toList ++ after) =
      some (some (Text.trimChars reason)) := by
  have hblank : isBlank ' ' = true := by decide
  have htrim : trimStart (" - ".toList ++ reason ++ " -->".toList ++ after) =
      '-' :: ' ' :: (reason ++ ' ' :: (closing ++ after)) := by
    simp [trimStart, closing, hblank, show isBlank '-' = false by decide]
  -- the blank before the closing is dropped with those of a reason that is all
  -- blank
  obtain ⟨kept, hkept, hopen, hend⟩ : ∃ kept,
      trimStart (' ' :: (reason ++ ' ' :: (closing ++ after))) =
        kept ++ closing ++ after ∧
        ¬ closing <:+: kept ++ closing.dropLast ∧
        trimEnd kept = Text.trimChars reason := by
    by_cases hnil : trimStart reason = []
    · refine ⟨[], ?_, by decide, ?_⟩
      · have hall := List.dropWhile_eq_nil_iff.mp hnil
        rw [trimStart, List.dropWhile_cons_of_pos hblank,
          List.dropWhile_append_of_pos hall, List.dropWhile_cons_of_pos hblank]
        rfl
      · rw [Text.trimChars, hnil]
    · refine ⟨trimStart reason ++ [' '], ?_, ?_, ?_⟩
      · rw [trimStart, List.dropWhile_cons_of_pos hblank, List.dropWhile_append,
          if_neg (by simpa [trimStart] using hnil)]
        simp [trimStart]
      · intro hoccurs
        rw [List.append_assoc] at hoccurs
        rcases Text.infix_or_infix_of_append_cons (by decide) hoccurs with
          hleft | hright
        · exact hreason (hleft.trans (Text.trimStart_suffix reason).isInfix)
        · exact absurd hright (by decide)
      · rw [Text.trimEnd_concat hblank, Text.trimChars]
  unfold readReason?
  rw [htrim]
  simp only [hkept, Text.before?_append hopen after, hend]

/-- The first comment of a line is read with the text before it. -/
theorem ofLine?_append {before : List Char} {d : Directive}
    (hbefore : ¬ Opens before) (hhere : readHere? rest = some d) :
    ofLine? (before ++ rest) = some { d with before := before } := by
  obtain ⟨tail, rfl⟩ : ∃ tail, rest = '<' :: tail := by
    obtain ⟨gap, tail, rfl, _⟩ := exists_of_readHere? hhere
    exact ⟨_, rfl⟩
  have hnone : ∀ v, v ≠ [] → v <:+ before →
      readHere? (v ++ '<' :: tail) = none := by
    intro v hne hv
    exact readHere?_eq_none_of_bracket hne
      (fun hopens => hbefore (hopens.mono hv.isInfix)) tail
  rw [ofLine?, readFrom?_append hnone, readFrom?, hhere]
  simp

end Directive

namespace WrittenDirective

variable (d : WrittenDirective)

theorem readReason?_afterRule :
    Directive.readReason? d.afterRule = some d.reason := by
  unfold afterRule
  cases hreason : d.reason with
  | none =>
      have hnone : Text.before? Directive.closing d.after = none :=
        (Text.before?_eq_none_iff (by decide)).mpr d.after_open
      simp only [Directive.readReason?_closing, hnone, Option.map_none]
  | some reason =>
      simp only [Directive.readReason?_reason (d.reason_open reason hreason),
        d.reason_trimmed reason hreason]

theorem exists_afterRule_eq_cons : ∃ more, d.afterRule = ' ' :: more := by
  unfold afterRule
  cases d.reason with
  | none => exact ⟨_, rfl⟩
  | some reason => exact ⟨_, rfl⟩

theorem readHere?_fromComment :
    Directive.readHere? d.fromComment =
      some ⟨[], d.word, d.rule, d.reason⟩ := by
  obtain ⟨more, hmore⟩ := d.exists_afterRule_eq_cons
  have hreason := d.readReason?_afterRule
  rw [hmore] at hreason
  have hhere :=
    Directive.readHere?_comment d.word d.rule_ne_nil d.rule_not_blank hreason
  rw [← hmore] at hhere
  exact hhere

/-- The directive of a line is read with the text that was written before it. -/
theorem ofLine?_chars :
    Directive.ofLine? d.chars = some ⟨d.before, d.word, d.rule, d.reason⟩ :=
  Directive.ofLine?_append (Directive.not_opens_of_unmarked d.before_unmarked)
    d.readHere?_fromComment

/-- The suppression that is read is the one that is meant. -/
theorem suppression_eq (file : String) (number : Nat) :
    (⟨d.before, d.word, d.rule, d.reason⟩ : Directive).suppression file number =
      d.suppression file number := by
  have hreason : Text.trimChars (d.reason.getD []) = d.reason.getD [] := by
    cases hreason : d.reason with
    | none => rfl
    | some reason => exact d.reason_trimmed reason hreason
  unfold Directive.suppression suppression Directive.scope scope
  rw [hreason]
  cases d.word with
  | ignoreFile => rfl
  | ignoreNextLine => rfl
  | ignore => by_cases hblank : d.before.all isBlank = true <;> simp [hblank]

theorem unbroken_chars : '\n' ∉ d.chars := by
  have hplain := d.unbroken
  have hrule : '\n' ∉ d.rule := fun hmem =>
    absurd (d.rule_not_blank '\n' hmem) (by decide)
  have hword : '\n' ∉ d.word.text.toList := by cases d.word <;> decide
  unfold chars fromComment afterRule
  simp only [List.mem_append, not_or] at hplain
  cases hreason : d.reason with
  | none => simp [hplain, hrule, hword]
  | some reason =>
      simp only [hreason, Option.getD_some] at hplain
      simp [hplain, hrule, hword]

end WrittenDirective

theorem LineEnd.exists_eq (ending : LineEnd) :
    ending.chars = ['\n'] ∨ ending.chars = ['\r'] ++ ['\n'] := by
  cases ending with
  | lineFeed => exact Or.inl rfl
  | returnLineFeed => exact Or.inr rfl

namespace WrittenLine

variable (line : WrittenLine)

theorem unbroken_chars : '\n' ∉ line.chars := by
  cases line with
  | plain chars _ hunbroken => exact hunbroken
  | directive d => exact d.unbroken_chars

theorem lineSuppression?_chars (file : String) (number : Nat) :
    lineSuppression? file number line.chars =
      line.suppression? file number := by
  rw [lineSuppression?]
  cases line with
  | plain line hunmarked _ =>
      rw [chars, Directive.ofLine?_eq_none hunmarked]
      rfl
  | directive d =>
      rw [chars, d.ofLine?_chars, Option.map_some, d.suppression_eq]
      rfl

/-- A written line is read the same with either end. -/
theorem suppressionsFrom_append (file : String) (number : Nat)
    (ending : LineEnd) (rest : List Char) :
    suppressionsFrom file number (line.chars ++ ending.chars ++ rest) =
      (line.suppression? file number).toList ++
        suppressionsFrom file (number + 1) rest := by
  rw [← lineSuppression?_chars]
  rcases ending.exists_eq with hend | hend
  · rw [hend, List.append_assoc]
    exact WebConfigAudit.suppressionsFrom_append file number
      line.unbroken_chars rest
  · have hunbroken : '\n' ∉ line.chars ++ ['\r'] := by
      simp [line.unbroken_chars]
    have hreturn : lineSuppression? file number (line.chars ++ ['\r']) =
        lineSuppression? file number line.chars := by
      rw [lineSuppression?, Directive.ofLine?_concat (by decide)]
      rfl
    rw [hend, ← List.append_assoc, List.append_assoc, ← hreturn]
    exact WebConfigAudit.suppressionsFrom_append file number hunbroken rest

end WrittenLine

theorem suppressionsFrom_joinLines (file : String) (number : Nat)
    (lines : List (WrittenLine × LineEnd)) :
    suppressionsFrom file number (joinLines lines) =
      ((lines.map Prod.fst).zipIdx number).filterMap fun entry =>
        entry.1.suppression? file entry.2 := by
  induction lines generalizing number with
  | nil => rfl
  | cons entry lines ih =>
      obtain ⟨line, ending⟩ := entry
      rw [List.map_cons, List.zipIdx_cons, List.filterMap_cons]
      cases lines with
      | nil =>
          rw [joinLines,
            suppressionsFrom_of_single file number line.unbroken_chars,
            line.lineSuppression?_chars]
          cases line.suppression? file number <;> rfl
      | cons next rest =>
          rw [joinLines, line.suppressionsFrom_append, ih]
          cases line.suppression? file number <;> rfl

/-- Reading undoes writing.  A document of written lines, each with either line
end, has one suppression for each line with a directive, in the order of the
lines and with the number of the line, and these are the suppressions that the
lines mean. -/
theorem readSuppressions_undoes_writing (file : String)
    (lines : List (WrittenLine × LineEnd)) :
    readSuppressions file (String.ofList (joinLines lines)) =
      ((lines.map Prod.fst).zipIdx 1).filterMap fun entry =>
        entry.1.suppression? file entry.2 := by
  rw [← suppressionsFrom_joinLines, suppressionsFrom, readSuppressions,
    String.toList_ofList]

/-- A rule with hyphens, one of them at its end, and no reason; then a reason
that begins with an arrow.  The last line has no end. -/
example :
    let first : WrittenDirective :=
      { before := "<web>".toList, word := .ignore, rule := "-a--b-".toList,
        reason := none
        after := "->".toList
        before_unmarked := by decide, rule_ne_nil := by decide
        rule_not_blank := Directive.not_blank_of_all (by decide)
        reason_ne_nil := by simp, reason_trimmed := by simp,
        reason_open := by simp
        after_open := by decide, unbroken := by decide }
    let second : WrittenDirective :=
      { before := [], word := .ignoreFile, rule := ['*'],
        reason := some "-> old".toList, after := []
        before_unmarked := by decide, rule_ne_nil := by decide
        rule_not_blank := Directive.not_blank_of_all (by decide)
        reason_ne_nil := by simp, reason_trimmed := by simp; decide
        reason_open := by simp; decide, after_open := by decide,
        unbroken := by decide }
    String.ofList (joinLines [(.directive first, .returnLineFeed),
      (.directive second, .lineFeed)]) =
        "<web><!-- webcfg-guard:ignore -a--b- -->->\r\n<!-- webcfg-guard:ignore-file * - -> old -->" ∧
      [first.suppression "f" 1, second.suppression "f" 2] =
        [⟨"-a--b-", "", "f", 1, .line⟩, ⟨"*", "-> old", "f", 0, .file⟩] := by
  decide +kernel

end WebConfigAudit
