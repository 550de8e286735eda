import WebConfigAudit.Proofs.DirectivePlaces
import WebConfigAudit.Proofs.SuppressedParts
import WebConfigAudit.Proofs.WrittenDirective
/-!
Plain directives, and what decides which line they cover.  Only the text before
the comment counts: if that is blank the directive covers the next line,
whatever stands behind the comment.  So a comment covers the elements of its own
line just if something stands in front of it.
-/

namespace WebConfigAudit

open Text (EndsLine Position isBlank trimStart)

/-- A comment with a plain directive: blanks before the mark, before the rule
and behind it, and a hyphen with a reason if there is one. -/
structure PlainComment where
  gap : List Char
  space : List Char
  rule : List Char
  tail : List Char
  reason : Option (List Char)
  gap_blank : ∀ c ∈ gap, isBlank c = true
  space_blank : ∀ c ∈ space, isBlank c = true
  space_ne_nil : space ≠ []
  rule_ne_nil : rule ≠ []
  rule_not_blank : ∀ c ∈ rule, isBlank c = false
  tail_blank : ∀ c ∈ tail, isBlank c = true
  tail_ne_nil : reason ≠ none → tail ≠ []

namespace PlainComment

variable (comment : PlainComment)

/-- The reason, if there is one, and the closing. -/
def ending : List Char :=
  (match comment.reason with
    | none => []
    | some reason => '-' :: reason) ++ Directive.closing

/-- The characters of the comment. -/
def chars : List Char :=
  Directive.opening ++ comment.gap ++ Directive.marker ++ "ignore".toList ++
    comment.space ++ comment.rule ++ comment.tail ++ comment.ending

end PlainComment

/-! Reading the rule behind a directive word -/

namespace Directive

variable {cs more after tail name : List Char} {k n : Nat}

/-- Blanks at the front do not matter to where a closing occurs. -/
theorem closing_infix_trimStart (hcloses : closing <:+: cs) :
    closing <:+: trimStart cs := by
  induction cs with
  | nil => exact hcloses
  | cons c cs ih =>
      cases hblank : isBlank c with
      | false =>
          rw [trimStart, List.dropWhile_cons_of_neg (by simp [hblank])]
          exact hcloses
      | true =>
          rw [trimStart, List.dropWhile_cons_of_pos hblank]
          rcases List.infix_cons_iff.mp hcloses with hprefix | hlater
          · have hhead : c = '-' := by
              obtain ⟨rest, hrest⟩ := hprefix
              exact (List.cons_eq_cons.mp hrest).1.symm
            subst hhead
            contradiction
          · exact ih hlater

/-- A reason, or that there is none, can be read wherever a hyphen comes next
and a closing is to come. -/
theorem isSome_readReason? (htail : ∀ c ∈ tail, isBlank c = true)
    (hcloses : closing <:+: '-' :: more) :
    (readReason? (tail ++ '-' :: more)).isSome = true := by
  have htrim : trimStart (tail ++ '-' :: more) = '-' :: more := by
    rw [trimStart, List.dropWhile_append_of_pos htail]
    rfl
  unfold readReason?
  rw [htrim]
  cases hbefore : Text.before? closing (trimStart more) with
  | some reason => simp only [hbefore, Option.isSome_some]
  | none =>
      rw [Text.before?_eq_none_iff (by decide)] at hbefore
      rcases List.infix_cons_iff.mp hcloses with hprefix | hlater
      · simp only [Text.before?_eq_none_iff (by decide : closing ≠ [])
            |>.mpr hbefore,
          List.isPrefixOf_iff_prefix.mpr hprefix, if_true, Option.isSome_some]
      · exact absurd (closing_infix_trimStart hlater) hbefore

theorem readReason?_eq_none (hopen : ¬ closing <:+: cs) :
    readReason? cs = none := by
  have hsuffix := Text.trimStart_suffix cs
  unfold readReason?
  split
  · next rest hrest =>
      rw [hrest] at hsuffix
      have hnone : Text.before? closing (trimStart rest) = none := by
        rw [Text.before?_eq_none_iff (by decide)]
        intro hcloses
        have hwithin :=
          (Text.trimStart_suffix rest).trans
            ((List.suffix_cons '-' rest).trans hsuffix)
        exact hopen (hcloses.trans hwithin.isInfix)
      rw [hnone]
      dsimp only
      rw [if_neg]
      intro hprefix
      exact hopen ((List.isPrefixOf_iff_prefix.mp hprefix).isInfix.trans
        hsuffix.isInfix)
  · rfl

/-- Some part of the word is taken for the rule if what follows one of its parts
can be read. -/
theorem isSome_readRule? (hk : 0 < k) (hkn : k ≤ n)
    (hread : (readReason? (name.drop k ++ after)).isSome = true) :
    (readRule? name after n).isSome = true := by
  induction n with
  | zero => omega
  | succ n ih =>
      rw [readRule?]
      split
      · rfl
      · next hnone =>
          refine ih ?_
          by_contra hlast
          obtain rfl : k = n + 1 := by omega
          rw [hnone] at hread
          contradiction

/-- The longest part of the word behind which something can be read is the
rule. -/
theorem readRule?_of_longest {reason : Option (List Char)} (hk : 0 < k)
    (hkn : k ≤ n) (hread : readReason? (name.drop k ++ after) = some reason)
    (hlonger : ∀ j, k < j → j ≤ n → readReason? (name.drop j ++ after) = none) :
    readRule? name after n = some (name.take k, reason) := by
  induction n with
  | zero => omega
  | succ n ih =>
      rw [readRule?]
      by_cases hlast : k = n + 1
      · subst hlast
        rw [hread]
      · rw [hlonger (n + 1) (by omega) (Nat.le_refl _)]
        exact ih (by omega) fun j hkj hjn => hlonger j hkj (by omega)

theorem readWord?_ignore {c : Char} (hc : isBlank c = true) (rest : List Char) :
    readWord? ("ignore".toList ++ c :: rest) = some (.ignore, c :: rest) := by
  have hhyphen : c ≠ '-' := by
    rintro rfl
    contradiction
  have hnone (word : List Char) : Text.after? ('-' :: word) (c :: rest) =
      none := by
    rw [Text.after?, if_neg (by simp [List.isPrefixOf, Ne.symm hhyphen])]
  have hfile : "-file".toList = '-' :: "file".toList := rfl
  have hnext : "-next-line".toList = '-' :: "next-line".toList := rfl
  simp only [readWord?, Text.after?_append, hfile, hnext, hnone,
    Option.bind_eq_bind, Option.bind_some]
  rfl

/-- What is read behind a directive word, blanks and a rule. -/
theorem readBody?_append_name (word : DirectiveWord) {space rest : List Char}
    (hspace : ∀ c ∈ space, isBlank c = true) (hne : space ≠ [])
    (hrest : ∀ c ∈ rest.head?, isBlank c = false) :
    readBody? word (space ++ rest) =
      (readRule? (rest.takeWhile fun c => !isBlank c)
        (rest.dropWhile fun c => !isBlank c)
        (rest.takeWhile fun c => !isBlank c).length).map fun found =>
          ⟨[], word, found.1, found.2⟩ := by
  have htrim : trimStart (space ++ rest) = rest := by
    rw [trimStart, List.dropWhile_append_of_pos hspace]
    cases rest with
    | nil => rfl
    | cons c rest => exact List.dropWhile_cons_of_neg (by simp [hrest c rfl])
  have hblanks : ((space ++ rest).takeWhile isBlank).isEmpty = false := by
    obtain ⟨c, space, rfl⟩ := List.exists_cons_of_ne_nil hne
    simp [hspace c List.mem_cons_self]
  have hdrop {front back : List Char} (hsplit : front ++ back = rest) :
      rest.drop front.length = back := by
    rw [← hsplit, List.drop_left]
  have hsplit :=
    List.takeWhile_append_dropWhile (p := fun c => !isBlank c) (l := rest)
  simp only [readBody?, hblanks, htrim, hdrop hsplit]
  rfl

/-- What is read of a plain directive is what is read behind its word. -/
theorem readHere?_ignore {gap space rest : List Char}
    (hgap : ∀ c ∈ gap, isBlank c = true)
    (hspace : ∀ c ∈ space, isBlank c = true) (hne : space ≠ []) :
    readHere? (opening ++ gap ++ marker ++ "ignore".toList ++ space ++ rest) =
      readBody? .ignore (space ++ rest) := by
  obtain ⟨c, others, rfl⟩ := List.exists_cons_of_ne_nil hne
  have htrim (more : List Char) : trimStart (gap ++ (marker ++ more)) =
      marker ++ more := by
    rw [trimStart, List.dropWhile_append_of_pos hgap]
    exact Text.trimStart_append (by decide) (by decide) more
  simp only [List.append_assoc]
  rw [readHere?_eq, Text.after?_append, Option.bind_some, htrim,
    Text.after?_append, Option.bind_some, List.cons_append,
    readWord?_ignore (hspace c List.mem_cons_self), Option.bind_some]

end Directive

namespace PlainComment

variable (comment : PlainComment)

/-- The rest of the comment begins with a hyphen, and a closing is to come. -/
theorem exists_ending_append (after : List Char) :
    ∃ more, comment.ending ++ after = '-' :: more ∧
      Directive.closing <:+: '-' :: more := by
  unfold ending
  cases comment.reason with
  | none => exact ⟨'-' :: '>' :: after, rfl, [], after, rfl⟩
  | some reason =>
      refine ⟨reason ++ Directive.closing ++ after, rfl, '-' :: reason,
        after, ?_⟩
      simp

/-- The text from the rule on. -/
def fromRule (after : List Char) : List Char :=
  comment.rule ++ (comment.tail ++ (comment.ending ++ after))

/-- The word at the front of that text, which has the rule at its front. -/
def word (after : List Char) : List Char :=
  (comment.fromRule after).takeWhile fun c => !isBlank c

theorem chars_append (after : List Char) :
    comment.chars ++ after = Directive.opening ++ comment.gap ++
      Directive.marker ++ "ignore".toList ++ comment.space ++
      comment.fromRule after := by
  simp only [chars, fromRule, List.append_assoc]

theorem word_eq (after : List Char) :
    comment.word after = comment.rule ++
      (comment.tail ++ (comment.ending ++ after)).takeWhile fun c =>
        !isBlank c := by
  rw [word, fromRule, List.takeWhile_append_of_pos]
  exact fun c hc => by simp [comment.rule_not_blank c hc]

theorem length_rule_le (after : List Char) :
    comment.rule.length ≤ (comment.word after).length := by
  rw [word_eq, List.length_append]
  exact Nat.le_add_right _ _

theorem word_eq_rule (htail : comment.tail ≠ []) (after : List Char) :
    comment.word after = comment.rule := by
  obtain ⟨c, others, hc⟩ := List.exists_cons_of_ne_nil htail
  have hblank : isBlank c = true := comment.tail_blank c (by simp [hc])
  rw [word_eq, hc, List.cons_append,
    List.takeWhile_cons_of_neg (by simp [hblank]), List.append_nil]

theorem drop_word_append {after : List Char} {k : Nat}
    (hk : k ≤ (comment.word after).length) :
    (comment.word after).drop k ++
        (comment.fromRule after).dropWhile (fun c => !isBlank c) =
      (comment.fromRule after).drop k := by
  have hsplit : comment.word after ++
        (comment.fromRule after).dropWhile (fun c => !isBlank c) =
      comment.fromRule after := List.takeWhile_append_dropWhile
  rw [← List.drop_append_of_le_length hk, hsplit]

/-- Behind the rule a reason can be read, or that there is none. -/
theorem isSome_readReason?_drop (after : List Char) :
    (Directive.readReason?
      ((comment.fromRule after).drop comment.rule.length)).isSome = true := by
  obtain ⟨more, hmore, hcloses⟩ := comment.exists_ending_append after
  rw [fromRule, List.drop_left, hmore]
  exact Directive.isSome_readReason? comment.tail_blank hcloses

/-- Farther on in the word nothing can be read. -/
theorem readReason?_drop_eq_none {after : List Char} {j : Nat}
    (hsingle : comment.tail ≠ [] ∨ ¬ Directive.closing <:+: after)
    (hrule : comment.rule.length < j) (hj : j ≤ (comment.word after).length) :
    Directive.readReason? ((comment.fromRule after).drop j) = none := by
  by_cases htail : comment.tail = []
  · have hopen := hsingle.resolve_left (absurd htail)
    have hreason : comment.reason = none := by
      by_contra hreason
      exact comment.tail_ne_nil hreason htail
    obtain ⟨k, rfl⟩ := Nat.exists_eq_add_of_lt hrule
    have hrest : (comment.fromRule after).drop (comment.rule.length + k + 1) =
        ('-' :: '>' :: after).drop k := by
      rw [fromRule, htail, ending, hreason, Nat.add_assoc,
        List.drop_length_add_append]
      rfl
    rw [hrest]
    refine Directive.readReason?_eq_none fun hcloses => ?_
    have hwithin :=
      hcloses.trans (List.drop_suffix k ('-' :: '>' :: after)).isInfix
    rcases List.infix_cons_iff.mp hwithin with hprefix | hwithin
    · exact absurd (List.isPrefixOf_iff_prefix.mpr hprefix)
        (by simp [Directive.closing])
    · rcases List.infix_cons_iff.mp hwithin with hprefix | hwithin
      · exact absurd (List.isPrefixOf_iff_prefix.mpr hprefix)
          (by simp [Directive.closing])
      · exact hopen hwithin
  · rw [comment.word_eq_rule htail] at hj
    omega

/-- The comment is read, whatever stands behind it.  The rule is the one it
names unless the closing follows the rule directly and there is another closing
behind it. -/
theorem exists_readHere?_append (after : List Char) :
    ∃ rule reason, Directive.readHere? (comment.chars ++ after) =
        some ⟨[], .ignore, rule, reason⟩ ∧
      (comment.tail ≠ [] ∨ ¬ Directive.closing <:+: after →
        rule = comment.rule) := by
  have hpos : 0 < comment.rule.length :=
    List.length_pos_iff.mpr comment.rule_ne_nil
  have hle := comment.length_rule_le after
  have hhead : ∀ c ∈ (comment.fromRule after).head?, isBlank c = false := by
    obtain ⟨c, others, hc⟩ := List.exists_cons_of_ne_nil comment.rule_ne_nil
    have hplain := comment.rule_not_blank c (by simp [hc])
    simpa [fromRule, hc] using hplain
  have hreads := comment.isSome_readReason?_drop after
  rw [← comment.drop_word_append hle] at hreads
  obtain ⟨⟨rule, reason⟩, hrule⟩ := Option.isSome_iff_exists.mp
    (Directive.isSome_readRule? hpos hle hreads)
  refine ⟨rule, reason, ?_, fun hsingle => ?_⟩
  · rw [comment.chars_append,
      Directive.readHere?_ignore comment.gap_blank comment.space_blank
        comment.space_ne_nil,
      Directive.readBody?_append_name .ignore comment.space_blank
        comment.space_ne_nil hhead]
    exact Option.map_eq_some_iff.mpr ⟨_, hrule, rfl⟩
  · obtain ⟨reason', hreason'⟩ := Option.isSome_iff_exists.mp hreads
    have hlongest :=
      Directive.readRule?_of_longest hpos hle hreason' fun j hj hjn => by
        rw [comment.drop_word_append hjn]
        exact comment.readReason?_drop_eq_none hsingle hj hjn
    rw [hlongest] at hrule
    obtain ⟨rfl, _⟩ := Prod.mk.inj (Option.some.inj hrule)
    rw [word_eq, List.take_left]

/-- The suppression of a line with the comment goes by the text before the
comment. -/
theorem exists_lineSuppression?_append {before : List Char}
    (hbefore : ¬ Directive.Opens before) (after : List Char) (file : String)
    (number : Nat) :
    ∃ s, lineSuppression? file number (before ++ comment.chars ++ after) =
        some s ∧
      s.file = file ∧ s.line = number ∧
      s.scope = (if before.all isBlank then .nextLine else .line) ∧
      (comment.tail ≠ [] ∨ ¬ Directive.closing <:+: after →
        s.rule = String.ofList comment.rule) := by
  obtain ⟨rule, reason, hread, hrule⟩ := comment.exists_readHere?_append after
  have hline := Directive.ofLine?_append hbefore hread
  rw [← List.append_assoc] at hline
  refine ⟨_, by rw [lineSuppression?, hline, Option.map_some], rfl, ?_, rfl, ?_⟩
  · cases hblank : before.all isBlank <;>
      simp [Directive.suppression, Directive.scope, hblank]
  · intro hsingle
    exact congrArg String.ofList (hrule hsingle)

end PlainComment

section Lines

variable {source above before rest below front : List Char}

/-- A bracket on a line, in a column that the text before a comment reaches, is
in that text. -/
theorem bracket_mem_of_column_le {after : List Char}
    (hline : Text.IsLine source above (before ++ rest) below)
    (hsource : source = front ++ '<' :: after)
    (hnumber : (Position.start.advance front).line = 1 + above.count '\n')
    (hcolumn : (Position.start.advance front).column ≤ before.length) :
    '<' ∈ before := by
  rw [Position.line_advance] at hnumber
  have hcount : front.count '\n' = above.count '\n' :=
    Nat.add_left_cancel hnumber
  have hsame := hline.split
  rw [hsource, List.append_assoc] at hsame
  obtain ⟨inside, rfl⟩ : ∃ inside, front = above ++ inside := by
    rcases List.append_eq_append_iff.mp hsame with
      ⟨more, habove, _⟩ | ⟨inside, hfront, _⟩
    · -- if the bracket were above the line, the line feed before the line
      -- would come after it
      rcases more.eq_nil_or_concat with rfl | ⟨others, c, rfl⟩
      · exact ⟨[], by rw [habove, List.append_nil, List.append_nil]⟩
      · have hends := hline.endsLine
        rw [habove, List.concat_eq_append, ← List.append_assoc,
          Text.endsLine_concat_iff] at hends
        rw [habove, hends] at hcount
        simp at hcount
    · exact ⟨inside, hfront⟩
  have hunbroken : '\n' ∉ inside := by
    rw [List.count_append] at hcount
    exact List.count_eq_zero.mp (by omega)
  rw [Position.advance_append, Position.advance_of_unbroken hunbroken,
    Position.column_advance_of_endsLine hline.endsLine] at hcolumn
  dsimp only at hcolumn
  rw [List.append_assoc, List.append_cancel_left_eq, List.append_assoc] at hsame
  rcases List.append_eq_append_iff.mp hsame with
    ⟨more, hmore, hrest⟩ | ⟨more, hmore, _⟩
  · cases more with
    | nil =>
        rw [hmore, List.append_nil] at hcolumn
        omega
    | cons x others =>
        obtain ⟨rfl, _⟩ := List.cons_eq_cons.mp hrest
        rw [hmore]
        simp
  · rw [hmore, List.length_append] at hcolumn
    omega

end Lines

/-- The elements on the line of a directive that covers its own line or the
next, and what becomes of violations at them. -/
theorem applies_iff_of_node {wanted : List Tag} {source : String}
    {nodes : List Node} {node : Node}
    (hread : readConfiguration wanted source = .ok nodes) (hnode : node ∈ nodes)
    {s : Suppression} {v : Violation}
    (hscope : s.scope = .line ∨ s.scope = .nextLine) (hfile : v.file = s.file)
    (hspan : v.span = node.location) (hnames : s.names v.rule = true)
    (hnumber : node.span.start.line = s.line) :
    s.applies v = true ↔ s.scope = .line := by
  obtain ⟨_, _, _, _, hlocation⟩ := exists_bracket_of_mem_nodes hread hnode
  rw [Suppression.applies_eq_covers hfile hnames, hspan, hlocation, hnumber]
  rcases hscope with hscope | hscope
  · simp [Suppression.covers, hscope]
  · simp [Suppression.covers, hscope]

/-- A plain directive looks only at the text in front of its comment.  If that
is blank it covers the next line, even if the comment shares its line with what
stands behind it, and otherwise it covers its own line.  So a violation at an
element that starts on the line of the comment is suppressed by it just if
something stands in front of the comment; for an element that starts there
itself this is so. -/
theorem plain_directive_heeds_text_before (file source : String)
    (comment : PlainComment) (above before after below : List Char)
    (hline : Text.IsLine source.toList above
      (before ++ comment.chars ++ after) below)
    (hbefore : ¬ Directive.Opens before) :
    ∃ s, readSuppressions file source =
        suppressionsFrom file 1 above ++
          s :: suppressionsFrom file (1 + above.count '\n' + 1) (below.drop 1) ∧
      s.file = file ∧ s.line = 1 + above.count '\n' ∧
      (s.scope = .nextLine ↔ before.all isBlank = true) ∧
      (s.scope = .line ↔ before.all isBlank = false) ∧
      (comment.tail ≠ [] ∨ ¬ Directive.closing <:+: after →
        s.rule = String.ofList comment.rule) ∧
      ∀ wanted nodes, readConfiguration wanted source = .ok nodes →
        ∀ node ∈ nodes,
        node.span.start.line = s.line → ∀ v : Violation, v.file = file →
          v.span = node.location →
          s.names v.rule = true →
            (s.applies v = true ↔ before.all isBlank = false) ∧
            (node.span.start.column ≤ before.length → s.applies v = true) ∧
            (s.applies v = true →
              ∀ found, v ∉
                (splitSuppressed (readSuppressions file source) found).1) := by
  obtain ⟨s, hs, rfl, hnumber, hscope, hrule⟩ :=
    comment.exists_lineSuppression?_append hbefore after file
      (1 + above.count '\n')
  have hnext : s.scope = .nextLine ↔ before.all isBlank = true := by
    rw [hscope]
    cases before.all isBlank <;> simp
  have hown : s.scope = .line ↔ before.all isBlank = false := by
    rw [hscope]
    cases before.all isBlank <;> simp
  refine ⟨s, ?_, rfl, hnumber, hnext, hown, hrule, ?_⟩
  · rw [readSuppressions_of_isLine hline, hs, List.append_assoc]
    rfl
  · intro wanted nodes hread node hnode hplace v hfile hspan hnames
    have hscopes : s.scope = .line ∨ s.scope = .nextLine := by
      rw [hown, hnext]
      cases before.all isBlank <;> simp
    have happlies :=
      applies_iff_of_node hread hnode hscopes hfile hspan hnames hplace
    rw [hown] at happlies
    refine ⟨happlies, fun hcolumn => ?_, fun hsuppressed found hstands => ?_⟩
    · obtain ⟨front, rest, hsource, hstart, _⟩ :=
        exists_bracket_of_mem_nodes hread hnode
      rw [hstart] at hplace hcolumn
      rw [hnumber] at hplace
      rw [List.append_assoc] at hline
      have hbracket := bracket_mem_of_column_le hline hsource hplace hcolumn
      rw [happlies, List.all_eq_false]
      exact ⟨'<', hbracket, by decide⟩
    · rw [standing_eq_filter, List.mem_filter, Bool.not_eq_true',
        List.any_eq_false] at hstands
      exact hstands.2 s (mem_suppressionsFrom_of_isLine hline hs) hsuppressed

namespace PlainDirectiveWitness

/-- A comment with few blanks. -/
def comment : PlainComment where
  gap := []
  space := [' ', ' ']
  rule := "AvoidTrace".toList
  tail := []
  reason := none
  gap_blank := List.forall_mem_nil _
  space_blank := List.all_eq_true.mp (by decide)
  space_ne_nil := List.cons_ne_nil _ _
  rule_ne_nil := by decide
  rule_not_blank := Directive.not_blank_of_all (by decide)
  tail_blank := List.forall_mem_nil _
  tail_ne_nil := fun hreason => absurd rfl hreason

def above : List Char := "<web>".toList ++ ['\n']

def before : List Char := "<trace/>".toList

def after : List Char := "<trace/></web>".toList

/-- An element on either side of the comment. -/
def text : String :=
  String.ofList (above ++ (before ++ comment.chars ++ after) ++ [])

theorem isLine_comment :
    Text.IsLine text.toList above (before ++ comment.chars ++ after) [] where
  split := String.toList_ofList
  endsLine := (Text.endsLine_concat_iff _).mpr rfl
  unbroken := by decide +kernel
  stops := by simp

theorem exists_nodes :
    ∃ first second, readConfiguration [.trace] text = .ok [first, second] ∧
      first.span.start = ⟨2, 1⟩ ∧ second.span.start = ⟨2, 47⟩ := by
  have htold : (readConfiguration [.trace] text).toOption.map
      (List.map fun node => node.span.start) = some [⟨2, 1⟩, ⟨2, 47⟩] := by
    rw [readConfiguration, Text.Cursor.ofText, text, String.toList_ofList]
    decide +kernel
  obtain ⟨nodes, hnodes, htold⟩ := Option.map_eq_some_iff.mp htold
  obtain ⟨first, rest, rfl, hfirst, hrest⟩ := List.map_eq_cons_iff.mp htold
  obtain ⟨second, rest, rfl, hsecond, hrest⟩ := List.map_eq_cons_iff.mp hrest
  obtain rfl := List.map_eq_nil_iff.mp hrest
  exact ⟨first, second, eq_ok_of_toOption hnodes, hfirst, hsecond⟩

/-- What a rule has against a node. -/
def violation (node : Node) : Violation :=
  ⟨"Web.config", "AvoidTrace", node.location, "tracing"⟩

theorem both_sides_are_covered :
    Text.IsLine text.toList above (before ++ comment.chars ++ after) [] ∧
      ¬ Directive.Opens before ∧ ¬ Directive.closing <:+: after ∧
      ∃ (s : Suppression) (first second : Node),
        readConfiguration [.trace] text = .ok [first, second] ∧
        first.span.start.line = s.line ∧
        first.span.start.column ≤ before.length ∧
        second.span.start.line = s.line ∧ s.rule = "AvoidTrace" ∧
        s.scope = .line ∧
        s.applies (violation first) = true ∧
        s.applies (violation second) = true := by
  have hbefore : ¬ Directive.Opens before :=
    Directive.not_opens_of_unmarked (by decide +kernel)
  have hafter : ¬ Directive.closing <:+: after := by decide +kernel
  have hnotBlank : before.all isBlank = false := by decide
  obtain ⟨s, _, _, hnumber, _, hscope, hrule, hcover⟩ :=
    plain_directive_heeds_text_before "Web.config" text comment above before
      after [] isLine_comment hbefore
  obtain ⟨first, second, hread, hfirst, hsecond⟩ := exists_nodes
  have hnamed : s.rule = "AvoidTrace" :=
    (hrule (Or.inr hafter)).trans String.ofList_toList
  have hnames : s.names "AvoidTrace" = true := by
    rw [Suppression.names, hnamed]
    decide
  have hfirstLine : first.span.start.line = s.line := by
    rw [hfirst, hnumber]
    decide
  have hsecondLine : second.span.start.line = s.line := by
    rw [hsecond, hnumber]
    decide
  have hcolumn : first.span.start.column ≤ before.length := by
    rw [hfirst]
    decide
  have hcoverFirst :=
    hcover _ _ hread first (by simp) hfirstLine (violation first) rfl rfl hnames
  have hcoverSecond :=
    hcover _ _ hread second (by simp) hsecondLine (violation second) rfl
      rfl hnames
  exact ⟨isLine_comment, hbefore, hafter, s, first, second, hread, hfirstLine,
    hcolumn, hsecondLine, hnamed, hscope.mpr hnotBlank, hcoverFirst.2.1 hcolumn,
    hcoverSecond.1.mpr hnotBlank⟩

/-- A comment in front of an element on one line is taken for one that is alone
there. -/
theorem comment_need_not_be_alone :
    ¬ ∀ (comment : PlainComment) (after : List Char) (s : Suppression),
      '\n' ∉ comment.chars ++ after →
        readSuppressions "Web.config" (String.ofList (comment.chars ++ after)) =
          [s] →
          (s.scope = .nextLine ↔ after.all isBlank = true) := by
  intro halone
  have hread :
      readSuppressions "Web.config" (String.ofList (comment.chars ++ after)) =
        [⟨"AvoidTrace", "", "Web.config", 1, .nextLine⟩] := by
    rw [readSuppressions, String.toList_ofList]
    decide +kernel
  have hblank := (halone comment after _ (by decide +kernel) hread).mp rfl
  exact absurd hblank (by decide)

end PlainDirectiveWitness

end WebConfigAudit
