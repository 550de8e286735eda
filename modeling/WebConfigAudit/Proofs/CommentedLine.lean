import WebConfigAudit.Proofs.DirectivePlaces
import WebConfigAudit.Proofs.WrittenDirective
/-!
Lines with directive comments.  The first comment of a line is read with the
rule that it names and the reason that it gives, whatever stands behind it.  The
rest of the line is not searched for more directives; all that comes of it is a
reason for a comment that gives none.
-/

namespace WebConfigAudit

open Text (isBlank)

/-- A directive comment: its word, the rule it names, and a reason if it gives
one. -/
structure DirectiveComment where
  word : DirectiveWord
  rule : List Char
  reason : Option (List Char)
  rule_ne_nil : rule ≠ []
  rule_not_blank : ∀ c ∈ rule, isBlank c = false
  reason_open : ∀ r ∈ reason, ¬ Directive.closing <:+: r

namespace DirectiveComment

theorem no_reason_open :
    ∀ r ∈ (none : Option (List Char)), ¬ Directive.closing <:+: r :=
  fun _ hr => nomatch hr

variable (comment : DirectiveComment) {before : List Char}

/-- What stands between the rule and the closing. -/
def reasonChars : List Char :=
  match comment.reason with
  | none => []
  | some reason => " - ".toList ++ reason

/-- The characters of the comment. -/
def chars : List Char :=
  "<!-- webcfg-guard:".toList ++ comment.word.text.toList ++ ' ' ::
    comment.rule ++ comment.reasonChars ++ " -->".toList

/-- What is taken for the reason if some text stands behind the comment. -/
def reasonTaken (after : List Char) : Option (List Char) :=
  match comment.reason with
  | some reason => some reason
  | none =>
      (Text.before? Directive.closing after).map fun front =>
        '-' :: '>' :: front

/-- The directive that is read off a line on which the comment is the first. -/
def directive (before after : List Char) : Directive :=
  ⟨before, comment.word, comment.rule,
    (comment.reasonTaken after).map Text.trimChars⟩

/-- Whether the comment names the rule. -/
def names (rule : String) : Bool :=
  String.ofList comment.rule == "*" ||
    Text.sameLetters (String.ofList comment.rule) rule

theorem readReason?_append (after : List Char) :
    Directive.readReason? (comment.reasonChars ++ " -->".toList ++ after) =
      some ((comment.reasonTaken after).map Text.trimChars) := by
  unfold reasonChars reasonTaken
  cases hreason : comment.reason with
  | none =>
      simp only [Option.map_map]
      exact Directive.readReason?_closing after
  | some reason =>
      exact Directive.readReason?_reason
        (comment.reason_open reason hreason) after

theorem exists_reasonChars_append (after : List Char) :
    ∃ more, comment.reasonChars ++ " -->".toList ++ after = ' ' :: more := by
  unfold reasonChars
  cases comment.reason with
  | none => exact ⟨_, rfl⟩
  | some reason => exact ⟨_, rfl⟩

theorem readHere?_append (after : List Char) :
    Directive.readHere? (comment.chars ++ after) =
      some (comment.directive [] after) := by
  have hsplit : comment.chars ++ after =
      "<!-- webcfg-guard:".toList ++ comment.word.text.toList ++ ' ' ::
        comment.rule ++ (comment.reasonChars ++ " -->".toList ++ after) := by
    unfold chars
    simp only [List.append_assoc]
  obtain ⟨more, hmore⟩ := comment.exists_reasonChars_append after
  have hreason := comment.readReason?_append after
  rw [hmore] at hreason
  rw [hsplit, hmore]
  exact Directive.readHere?_comment comment.word comment.rule_ne_nil
    comment.rule_not_blank hreason

/-- The first comment of a line is read whatever stands behind it. -/
theorem ofLine?_append (hbefore : ¬ Directive.marker <:+: before)
    (after : List Char) :
    Directive.ofLine? (before ++ comment.chars ++ after) =
      some (comment.directive before after) := by
  rw [List.append_assoc]
  exact Directive.ofLine?_append (Directive.not_opens_of_unmarked hbefore)
    (comment.readHere?_append after)

theorem lineSuppression?_append (hbefore : ¬ Directive.marker <:+: before)
    (after : List Char) (file : String) (number : Nat) :
    lineSuppression? file number (before ++ comment.chars ++ after) =
      some ((comment.directive before after).suppression file number) := by
  rw [lineSuppression?, comment.ofLine?_append hbefore after]
  rfl

section Reason

variable (before : List Char) {after : List Char} (file : String) (number : Nat)

/-- Blanks at the ends of what is taken for the reason are dropped, once for
all. -/
theorem reason_suppression :
    ((comment.directive before after).suppression file number).reason =
      String.ofList
        (((comment.reasonTaken after).map Text.trimChars).getD []) := by
  unfold Directive.suppression directive
  cases comment.reasonTaken after with
  | none => rfl
  | some taken =>
      simp only [Option.map_some, Option.getD_some, Text.trimChars_trimChars]

theorem reason_of_given {reason : List Char}
    (hgiven : comment.reason = some reason) :
    ((comment.directive before after).suppression file number).reason =
      String.ofList (Text.trimChars reason) := by
  rw [reason_suppression, reasonTaken, hgiven]
  rfl

/-- Without a reason of its own, the comment takes the text up to the next
closing on the line. -/
theorem reason_of_not_given (hnone : comment.reason = none) :
    ((comment.directive before after).suppression file number).reason =
      String.ofList (((Text.before? Directive.closing after).map fun front =>
        Text.trimChars ('-' :: '>' :: front)).getD []) := by
  rw [reason_suppression, reasonTaken, hnone]
  simp only [Option.map_map]
  rfl

theorem reason_eq_empty_iff (hnone : comment.reason = none) :
    ((comment.directive before after).suppression file number).reason = "" ↔
      ¬ Directive.closing <:+: after := by
  rw [reason_of_not_given comment before file number hnone,
    ← Text.before?_eq_none_iff (by decide : Directive.closing ≠ [])]
  cases hfront : Text.before? Directive.closing after with
  | none => simp
  | some front =>
      have htaken : Text.trimChars ('-' :: '>' :: front) ≠ [] :=
        Text.trimChars_cons_ne_nil (by decide) _
      simp [htaken]

end Reason

end DirectiveComment

/-- The text behind a directive comment does not change what the comment says,
but for a reason that the comment does not give.  A line with such a comment
stands for one suppression, of the rule that the comment names and with the
reason that it gives.  The reason of a comment that gives none is empty just if
the line closes no other comment behind it; otherwise the text up to the first
of those closings is taken for the reason. -/
theorem comment_says_its_rule (file source : String)
    (comment : DirectiveComment) (above before after below : List Char)
    (hline : Text.IsLine source.toList above
      (before ++ comment.chars ++ after) below)
    (hbefore : ¬ Directive.marker <:+: before) :
    ∃ s, readSuppressions file source =
        suppressionsFrom file 1 above ++
          s :: suppressionsFrom file (1 + above.count '\n' + 1) (below.drop 1) ∧
      s.rule = String.ofList comment.rule ∧
      (∀ reason, comment.reason = some reason →
        s.reason = String.ofList (Text.trimChars reason)) ∧
      (comment.reason = none →
        (s.reason = "" ↔ ¬ Directive.closing <:+: after) ∧
        ∀ front rest, after = front ++ Directive.closing ++ rest →
          ¬ Directive.closing <:+: front ++ Directive.closing.dropLast →
          s.reason = String.ofList
            (Text.trimChars ("->".toList ++ front))) := by
  refine ⟨(comment.directive before after).suppression file
    (1 + above.count '\n'), ?_, rfl, ?_, ?_⟩
  · rw [readSuppressions_of_isLine hline,
      comment.lineSuppression?_append hbefore, List.append_assoc]
    rfl
  · intro reason hgiven
    exact comment.reason_of_given before file _ hgiven
  · intro hnone
    refine ⟨comment.reason_eq_empty_iff before file _ hnone, ?_⟩
    rintro front rest rfl hfirst
    rw [comment.reason_of_not_given before file _ hnone,
      Text.before?_append hfirst rest]
    rfl

namespace CommentWitness

/-- A comment without a reason, and another comment behind it on the line. -/
def comment : DirectiveComment where
  word := .ignoreFile
  rule := "AvoidTracing".toList
  reason := none
  rule_ne_nil := by decide
  rule_not_blank := Directive.not_blank_of_all (by decide)
  reason_open := DirectiveComment.no_reason_open

def above : List Char := "<web>".toList ++ ['\n']

def before : List Char := [' ', ' ']

def after : List Char := " <!-- until spring --><trace/>".toList

def text : String :=
  String.ofList (above ++ (before ++ comment.chars ++ after) ++ [])

theorem isLine_comment :
    Text.IsLine text.toList above (before ++ comment.chars ++ after) [] where
  split := String.toList_ofList
  endsLine := (Text.endsLine_concat_iff _).mpr rfl
  unbroken := by decide +kernel
  stops := by simp

theorem reason_runs_to_spring :
    Text.IsLine text.toList above (before ++ comment.chars ++ after) [] ∧
      ¬ Directive.marker <:+: before ∧ comment.reason = none ∧
      after = " <!-- until spring ".toList ++ Directive.closing ++
        "<trace/>".toList ∧
      ¬ Directive.closing <:+: " <!-- until spring ".toList ++
        Directive.closing.dropLast ∧
      ∃ s, readSuppressions "Web.config" text = [s] ∧ s.rule = "AvoidTracing" ∧
      s.reason ≠ "" ∧
        s.reason = "-> <!-- until spring" := by
  have hunmarked : ¬ Directive.marker <:+: before := by decide
  have hafter : after = " <!-- until spring ".toList ++ Directive.closing ++
      "<trace/>".toList := by
    decide +kernel
  have hfirst :
      ¬ Directive.closing <:+: " <!-- until spring ".toList ++
        Directive.closing.dropLast := by
    decide +kernel
  have hoccurs : Directive.closing <:+: after := ⟨_, _, hafter.symm⟩
  have habove : suppressionsFrom "Web.config" 1 above = [] := by decide +kernel
  obtain ⟨s, hread, hrule, _, hnone⟩ :=
    comment_says_its_rule "Web.config" text comment above before
      after [] isLine_comment hunmarked
  obtain ⟨hempty, htaken⟩ := hnone rfl
  rw [habove] at hread
  exact ⟨isLine_comment, hunmarked, rfl, hafter, hfirst, s, hread, hrule,
    fun hnothing => hempty.mp hnothing hoccurs, htaken _ _ hafter hfirst⟩

/-- The reason is not that of the comment alone. -/
theorem reason_is_not_that_of_comment :
    ¬ ∀ (comment : DirectiveComment) (after : List Char) (s : Suppression),
      '\n' ∉ comment.chars ++ after →
        (readSuppressions "Web.config"
          (String.ofList (comment.chars ++ after))).head? = some s →
          s.rule = String.ofList comment.rule ∧
            s.reason = String.ofList
              ((comment.reason.map Text.trimChars).getD []) := by
  intro hsays
  have hread :
      (readSuppressions "Web.config"
        (String.ofList (comment.chars ++ after))).head? =
        some ⟨"AvoidTracing", "-> <!-- until spring", "Web.config", 0,
          .file⟩ := by
    rw [readSuppressions, String.toList_ofList]
    decide +kernel
  obtain ⟨_, hreason⟩ := hsays comment after _ (by decide +kernel) hread
  exact absurd hreason (by decide +kernel)

end CommentWitness

/-- A line with directive comments: what stands before the first, and each
comment with what stands behind it up to the next. -/
structure CommentedLine where
  before : List Char
  comments : List (DirectiveComment × List Char)
  before_unmarked : ¬ Directive.marker <:+: before
  between_unmarked : ∀ entry ∈ comments, ¬ Directive.marker <:+: entry.2

namespace CommentedLine

variable (line : CommentedLine)

/-- The characters of the line. -/
def chars : List Char :=
  line.before ++ line.comments.flatMap fun entry => entry.1.chars ++ entry.2

/-- What stands behind the first comment. -/
def afterFirst : List Char :=
  (line.comments.head?.map Prod.snd).getD [] ++
    line.comments.tail.flatMap fun entry => entry.1.chars ++ entry.2

/-- The suppression that the first comment stands for, if there is one. -/
def suppression? (file : String) (number : Nat) : Option Suppression :=
  line.comments.head?.map fun entry =>
    (entry.1.directive line.before line.afterFirst).suppression file number

theorem lineSuppression?_chars (file : String) (number : Nat) :
    lineSuppression? file number line.chars =
      line.suppression? file number := by
  unfold lineSuppression? suppression? afterFirst chars
  cases line.comments with
  | nil =>
      rw [List.flatMap_nil, List.append_nil,
        Directive.ofLine?_eq_none line.before_unmarked]
      rfl
  | cons entry rest =>
      rw [List.flatMap_cons, List.append_assoc, ← List.append_assoc,
        entry.1.ofLine?_append line.before_unmarked]
      rfl

theorem map_rule_suppression? (file : String) (number : Nat) :
    (line.suppression? file number).toList.map Suppression.rule =
      (line.comments.take 1).map fun entry => String.ofList entry.1.rule := by
  unfold suppression?
  cases line.comments with
  | nil => rfl
  | cons entry rest => rfl

/-- Where the suppression applies, it takes what its comment names. -/
theorem applies_suppression?_iff {file : String} {number : Nat} {v : Violation}
    (hfile : v.file = file)
    (hcovers : ∀ s ∈ line.suppression? file number,
      s.covers v.span.start.line = true) :
    (∃ s ∈ line.suppression? file number, s.applies v = true) ↔
      ∃ entry ∈ line.comments.head?, entry.1.names v.rule = true := by
  have happlies : ∀ s ∈ line.suppression? file number,
      s.applies v = s.names v.rule := by
    intro s hs
    have hsame : v.file = s.file := by
      obtain ⟨entry, _, rfl⟩ := Option.map_eq_some_iff.mp hs
      exact hfile
    simp [Suppression.applies, hsame, hcovers s hs]
  constructor
  · rintro ⟨s, hs, hnames⟩
    rw [happlies s hs] at hnames
    obtain ⟨entry, hentry, rfl⟩ := Option.map_eq_some_iff.mp hs
    exact ⟨entry, hentry, hnames⟩
  · rintro ⟨entry, hentry, hnames⟩
    have hs : (entry.1.directive line.before line.afterFirst).suppression
          file number ∈
        line.suppression? file number :=
      Option.map_eq_some_iff.mpr ⟨entry, hentry, rfl⟩
    exact ⟨_, hs, (happlies _ hs).trans hnames⟩

end CommentedLine

/-- Of the directive comments on a line only the first is heeded.  The
suppressions of a text are those of the lines above, at most one for the line,
and those of the lines below; the one for the line has the rule of its first
comment.  So there are as many as there are comments just if there is at most
one, and a violation where the suppression applies is suppressed just if the
first comment names its rule. -/
theorem line_heeds_first_comment (file source : String) (line : CommentedLine)
    (above below : List Char)
    (hline : Text.IsLine source.toList above line.chars below) :
    ∃ found, readSuppressions file source =
        suppressionsFrom file 1 above ++ found ++
          suppressionsFrom file (1 + above.count '\n' + 1) (below.drop 1) ∧
      found.map Suppression.rule =
        ((line.comments.take 1).map fun entry => String.ofList entry.1.rule) ∧
      (found.length = line.comments.length ↔ line.comments.length ≤ 1) ∧
      ∀ v : Violation, v.file = file →
        (∀ s ∈ found, s.covers v.span.start.line = true) →
        ((∃ s ∈ found, s.applies v = true) ↔
          ∃ entry ∈ line.comments.head?, entry.1.names v.rule = true) := by
  have hrules := line.map_rule_suppression? file (1 + above.count '\n')
  refine ⟨(line.suppression? file (1 + above.count '\n')).toList, ?_,
    hrules, ?_, ?_⟩
  · rw [readSuppressions_of_isLine hline, line.lineSuppression?_chars]
  · have hlength := congrArg List.length hrules
    rw [List.length_map, List.length_map, List.length_take] at hlength
    omega
  · intro v hfile hcovers
    simp only [Option.mem_toList] at hcovers ⊢
    exact line.applies_suppression?_iff hfile hcovers

namespace CommentedLineWitness

open CommentWitness (comment above)

/-- A second comment on the line, with a reason. -/
def second : DirectiveComment where
  word := .ignoreFile
  rule := "AvoidDebugging".toList
  reason := some "until spring".toList
  rule_ne_nil := by decide
  rule_not_blank := Directive.not_blank_of_all (by decide)
  reason_open := by simp; decide

/-- Two comments and an element between them. -/
def line : CommentedLine where
  before := []
  comments := [(second, "<trace/>".toList), (comment, [])]
  before_unmarked := by decide
  between_unmarked := by
    simp only [List.forall_mem_cons]
    exact ⟨by decide +kernel, by decide, by simp⟩

def text : String := String.ofList (above ++ line.chars ++ [])

theorem isLine_line : Text.IsLine text.toList above line.chars [] where
  split := String.toList_ofList
  endsLine := (Text.endsLine_concat_iff _).mpr rfl
  unbroken := by decide +kernel
  stops := by simp

/-- What tracing has done wrong somewhere in the file. -/
def tracing : Violation :=
  ⟨"Web.config", "AvoidTracing", Span.nowhere, "tracing"⟩

theorem tracing_is_not_suppressed :
    Text.IsLine text.toList above line.chars [] ∧ tracing.file = "Web.config" ∧
      (∀ s ∈ readSuppressions "Web.config" text,
        s.covers tracing.span.start.line = true) ∧
      (readSuppressions "Web.config" text).map Suppression.rule =
        ["AvoidDebugging"] ∧
      ¬ ∃ s ∈ readSuppressions "Web.config" text, s.applies tracing = true := by
  have habove : suppressionsFrom "Web.config" 1 above = [] := by decide +kernel
  obtain ⟨found, hread, hrules, _, hsuppressed⟩ :=
    line_heeds_first_comment "Web.config" text line above [] isLine_line
  obtain rfl : readSuppressions "Web.config" text = found := by
    rw [hread, habove]
    exact List.append_nil found
  have hcovers : ∀ s ∈ readSuppressions "Web.config" text,
      s.covers tracing.span.start.line = true := by
    rw [readSuppressions, text, String.toList_ofList]
    decide +kernel
  have hnames : ¬ ∃ entry ∈ line.comments.head?, entry.1.names tracing.rule =
      true := by
    rintro ⟨entry, hentry, hnames⟩
    obtain rfl := Option.some.inj hentry
    exact absurd hnames (by decide +kernel)
  exact ⟨isLine_line, rfl, hcovers, hrules,
    fun happlies => hnames ((hsuppressed tracing rfl hcovers).mp happlies)⟩

/-- The second comment of a line does not take effect. -/
theorem comments_are_more_than_suppressions :
    ¬ ∀ line : CommentedLine, '\n' ∉ line.chars →
      (readSuppressions "Web.config" (String.ofList line.chars)).length =
        line.comments.length := by
  intro heach
  have hlength := heach line (by decide +kernel)
  rw [readSuppressions, String.toList_ofList] at hlength
  exact absurd hlength (by decide +kernel)

end CommentedLineWitness

end WebConfigAudit
