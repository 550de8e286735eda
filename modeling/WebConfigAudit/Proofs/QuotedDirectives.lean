import WebConfigAudit.Proofs.DirectiveText
import WebConfigAudit.Proofs.PrologStretches
/-!
Directives in a document, and whether they are comments of it.  Directives are
looked for in the lines of a text, and the readers of markup are not asked.  So
a directive also counts where its text is only quoted: in a literal section, in
an instruction, in a declaration, or in the value of an entity.
-/

namespace WebConfigAudit

namespace Xml

open Text (Cursor)

section Comments

variable {inside rest : List Char} {c d : Cursor}

/-- Loose hyphens are two hyphens side by side, once the closing begins behind
the text. -/
theorem hasLooseHyphens_iff (cs : List Char) :
    hasLooseHyphens cs = true ↔ ['-', '-'] <:+: cs ++ ['-'] := by
  induction cs with
  | nil => decide
  | cons x cs ih =>
      rw [List.cons_append, List.infix_cons_iff, ← ih]
      by_cases hx : '-' = x
      · subst hx
        cases cs with
        | nil => simp [hasLooseHyphens]
        | cons y cs =>
            by_cases hy : '-' = y
            · subst hy
              simp [hasLooseHyphens]
            · simp [hasLooseHyphens, hy, Ne.symm hy]
      · cases cs <;> simp [hasLooseHyphens, hx, Ne.symm hx]

/-- The text of a comment is closed once, and has no hyphens side by side. -/
theorem exists_of_skipComment {chars : List Char}
    (hskip : skipComment c = some d) (hpasses : c.Passes chars d) :
    ∃ inside, chars = Directive.opening ++ inside ++ Directive.closing ∧
      Text.before? Directive.closing (inside ++ Directive.closing ++ d.rest) =
        some inside ∧
      ¬ ['-', '-'] <:+: inside ++ ['-'] := by
  obtain ⟨opened, inside, hopening, hclosing, hbefore, hhyphens⟩ :=
    passes_of_skipComment hskip
  rw [hclosing.rest] at hbefore
  refine ⟨inside, ?_, hbefore,
    by rw [← hasLooseHyphens_iff, hhyphens]; exact Bool.false_ne_true⟩
  have hsame := hpasses.rest.symm.trans (hopening.trans hclosing).rest
  rw [List.append_cancel_right_eq] at hsame
  rw [hsame, List.append_assoc]
  rfl

/-- No opening stands in a comment, but where its last hyphens are those of the
closing. -/
theorem ne_of_opening_inside {front right : List Char} {x : Char}
    (hhyphens : ¬ ['-', '-'] <:+: inside ++ ['-']) (hx : x ≠ '>') :
    inside ++ Directive.closing ≠
      front ++ (Directive.opening ++ x :: right) := by
  intro hsplit
  have hlast : right ≠ [] := by
    rintro rfl
    have hend := congrArg List.getLast? hsplit
    simp only [Directive.closing, Directive.opening, List.getLast?_append,
      List.getLast?_cons_cons, List.getLast?_singleton, Option.some_or,
      List.cons_append, List.nil_append] at hend
    exact hx (Option.some.inj hend).symm
  have hpos := List.length_pos_iff.mpr hlast
  have hlength := congrArg List.length hsplit
  have hfront : front ++ Directive.opening <+: inside ++ Directive.closing :=
    ⟨x :: right, by rw [hsplit, List.append_assoc]⟩
  have hwhole : inside ++ ['-'] <+: inside ++ Directive.closing :=
    ⟨['-', '>'], by rw [List.append_assoc]; rfl⟩
  have hwithin : front ++ Directive.opening <+: inside ++ ['-'] := by
    refine List.prefix_of_prefix_length_le hfront hwhole ?_
    simp only [Directive.opening, Directive.closing, List.length_append,
      List.length_cons, List.length_nil] at hlength ⊢
    omega
  have hpair : ['-', '-'] <:+: front ++ Directive.opening :=
    ⟨front ++ ['<', '!'], [], by simp [Directive.opening]⟩
  exact hhyphens (hpair.trans hwithin.isInfix)

/-- An opening that lies in a comment is the one that the comment begins
with. -/
theorem eq_nil_of_opening_in_comment {left right : List Char} {x : Char}
    (hsplit : Directive.opening ++ (inside ++ Directive.closing) =
      left ++ (Directive.opening ++ x :: right))
    (hhyphens : ¬ ['-', '-'] <:+: inside ++ ['-']) (hx : x ≠ '>') :
    left = [] := by
  cases left with
  | nil => rfl
  | cons l left =>
      exfalso
      rcases List.append_eq_append_iff.mp hsplit with
        ⟨tail, _, hinside⟩ | ⟨tail, hopening, htail⟩
      · exact ne_of_opening_inside hhyphens hx hinside
      · cases tail with
        | nil =>
            have hinside : inside ++ Directive.closing =
                [] ++ (Directive.opening ++ x :: right) :=
              htail.symm
            exact ne_of_opening_inside hhyphens hx hinside
        | cons t tail =>
            -- the opening would begin with a later character of the same
            -- opening
            obtain ⟨rfl, _⟩ := List.cons_eq_cons.mp htail
            have hrest : ['!', '-', '-'] = left ++ '<' :: tail :=
              (List.cons_eq_cons.mp hopening).2
            have hmem : '<' ∈ ['!', '-', '-'] := by
              rw [hrest]
              exact List.mem_append_right left List.mem_cons_self
            exact absurd hmem (by decide)

/-- The hyphens of an opening are not those of a closing, unless one comes right
behind it. -/
theorem infix_of_infix_opening_append {x : Char} {cs : List Char}
    (hhyphen : x ≠ '-') (hbracket : x ≠ '>')
    (hoccurs : Directive.closing <:+: Directive.opening ++ x :: cs) :
    Directive.closing <:+: x :: cs := by
  have hstep {y : Char} {ds : List Char}
      (hother : ¬ Directive.closing <+: y :: ds)
      (hoccurs : Directive.closing <:+: y :: ds) : Directive.closing <:+: ds :=
    (List.infix_cons_iff.mp hoccurs).resolve_left hother
  refine hstep ?_ (hstep ?_ (hstep ?_ (hstep ?_ hoccurs)))
  all_goals simp [Directive.closing, Ne.symm hhyphen, Ne.symm hbracket]

end Comments

section Places

/-- Part of a text lies in one of its comments: `front` is the text before
it. -/
def InComment (list : List Stretch) (front text : List Char) : Prop :=
  ∃ comment, comment.kind = .comment ∧ LiesIn list front text comment

variable {list : List Stretch} {front text : List Char} {stretch : Stretch}

/-- What begins at one place of a text lies in one stretch. -/
theorem stretch_unique {before before' after after' : List Stretch}
    {other : Stretch} {left left' : List Char}
    (hlist : before ++ stretch :: after = before' ++ other :: after')
    (hfront : charsOf before ++ left = charsOf before' ++ left')
    (hleft : left.length < stretch.chars.length)
    (hleft' : left'.length < other.chars.length) : stretch = other := by
  induction before generalizing before' with
  | nil =>
      cases before' with
      | nil => exact (List.cons_eq_cons.mp hlist).1
      | cons first before' =>
          obtain ⟨rfl, _⟩ := List.cons_eq_cons.mp hlist
          have hlength := congrArg List.length hfront
          simp only [charsOf, List.flatMap_nil, List.flatMap_cons,
            List.length_append, List.length_nil] at hlength
          omega
  | cons first before ih =>
      cases before' with
      | nil =>
          obtain ⟨rfl, _⟩ := List.cons_eq_cons.mp hlist
          have hlength := congrArg List.length hfront
          simp only [charsOf, List.flatMap_nil, List.flatMap_cons,
            List.length_append, List.length_nil] at hlength
          omega
      | cons first' before' =>
          obtain ⟨rfl, hothers⟩ := List.cons_eq_cons.mp hlist
          simp only [charsOf, List.flatMap_cons, List.append_assoc,
            List.append_cancel_left_eq] at hfront
          exact ih hothers hfront

theorem LiesIn.unique {text' : List Char} {other : Stretch}
    (hlies : LiesIn list front text stretch)
    (hother : LiesIn list front text' other) (htext : text ≠ [])
    (htext' : text' ≠ []) : stretch = other := by
  obtain ⟨before, after, left, right, hlist, hfront, hchars⟩ := hlies.place
  obtain ⟨before', after', left', right', hlist', hfront', hchars'⟩ :=
    hother.place
  have hpos := List.length_pos_iff.mpr htext
  have hpos' := List.length_pos_iff.mpr htext'
  refine stretch_unique (hlist.symm.trans hlist')
    (hfront.symm.trans hfront') ?_ ?_
  · rw [hchars, List.length_append, List.length_append]
    omega
  · rw [hchars', List.length_append, List.length_append]
    omega

end Places

section Document

variable {source front : List Char} {pos : Text.Position} {last : Zone}
  {d : Cursor} {stretch : Stretch} {list : List Stretch} {x : Char}
  {text rest : List Char}

/-- A comment of the document in which a comment seems to open begins right
there. -/
theorem exists_inside_of_comment
    (hfollows : Follows .content ⟨source, pos⟩ list last d)
    (hlies : LiesIn list front Directive.opening stretch)
    (hkind : stretch.kind = .comment)
    (hsource : source = front ++ Directive.opening ++ x :: rest)
    (hx : x ≠ '>') :
    ∃ inside more, stretch.chars = Directive.opening ++ inside ++
        Directive.closing ∧
      x :: rest = inside ++ Directive.closing ++ more ∧
      Text.before? Directive.closing (x :: rest) = some inside ∧
      LiesIn list front stretch.chars stretch := by
  obtain ⟨before, after, left, right, rfl, rfl, hchars⟩ := hlies.place
  obtain ⟨e, f, hbefore, hread, _⟩ := hfollows.exists_isRead
  have hskip : skipComment e = some f := by
    have hreads := hread.reads
    rwa [hkind] at hreads
  obtain ⟨inside, hinside, hfirst, hhyphens⟩ :=
    exists_of_skipComment hskip hread.passes
  have hright : x :: rest = right ++ f.rest := by
    have hrest : source = charsOf before ++ (stretch.chars ++ f.rest) := by
      rw [← hread.passes.rest]
      exact hbefore.rest
    rw [hsource, hchars] at hrest
    simpa only [List.append_assoc, List.append_cancel_left_eq] using hrest
  have hboth : Directive.opening ++ (inside ++ Directive.closing) =
      left ++ (Directive.opening ++ right) := by
    rw [← List.append_assoc, ← hinside, hchars, List.append_assoc]
  obtain ⟨right, rfl⟩ : ∃ more, right = x :: more := by
    cases right with
    | nil =>
        have hlast : some '>' = some '-' := by
          calc some '>' =
            (Directive.opening ++ (inside ++ Directive.closing)).getLast? := by
                rw [← List.append_assoc,
                  List.getLast?_append_of_ne_nil _ (by decide)]
                rfl
            _ = some '-' := by
                rw [hboth, List.append_nil,
                  List.getLast?_append_of_ne_nil _ (by decide)]
                rfl
        contradiction
    | cons y right => exact ⟨right, by rw [(List.cons_eq_cons.mp hright).1]⟩
  obtain rfl := eq_nil_of_opening_in_comment hboth hhyphens hx
  have hsame : inside ++ Directive.closing = x :: right := by
    rwa [List.nil_append, List.append_cancel_left_eq] at hboth
  have hrest : x :: rest = inside ++ Directive.closing ++ f.rest := by
    rw [hright, hsame]
  exact ⟨inside, f.rest, hinside, hrest, by rw [hrest, hfirst],
    before, after, [], [], rfl, rfl, by simp⟩

/-- A text with the ends of a comment lies in a comment just if it begins in one
and has no closing but its own. -/
theorem inComment_iff (hfollows : Follows .content ⟨source, pos⟩ list last d)
    (hlies : LiesIn list front Directive.opening stretch)
    (hsource : source =
      front ++ (Directive.opening ++ x :: text ++ Directive.closing) ++ rest)
    (hhyphen : x ≠ '-') (hbracket : x ≠ '>') :
    InComment list front (Directive.opening ++ x :: text ++ Directive.closing) ↔
      stretch.kind = .comment ∧
        ¬ Directive.closing <:+:
          (Directive.opening ++ x :: text ++ Directive.closing).dropLast := by
  have hopening : source = front ++ Directive.opening ++ x ::
      (text ++ Directive.closing ++ rest) := by
    simp [hsource]
  have hdropLast :
      (Directive.opening ++ x :: text ++ Directive.closing).dropLast =
        Directive.opening ++ x :: (text ++ Directive.closing.dropLast) := by
    rw [List.dropLast_append_of_ne_nil (by decide)]
    simp
  rw [hdropLast]
  constructor
  · rintro ⟨comment, hkind, hcomment⟩
    obtain rfl := hlies.unique hcomment (by decide) (by simp)
    refine ⟨hkind, fun hoccurs => ?_⟩
    obtain ⟨inside, more, hchars, hrest, hfirst, _⟩ :=
      exists_inside_of_comment hfollows hlies hkind hopening hbracket
    have hlength : (x :: text).length ≤ inside.length := by
      obtain ⟨_, _, left, right, _, _, hplace⟩ := hcomment.place
      have hboth := congrArg List.length (hchars.symm.trans hplace)
      simp only [List.length_append] at hboth ⊢
      omega
    have htext : x :: (text ++ Directive.closing.dropLast) <+:
        x :: (text ++ Directive.closing ++ rest) := by
      rw [List.prefix_cons_inj, List.append_assoc, List.prefix_append_right_inj]
      exact (List.dropLast_prefix _).trans (List.prefix_append _ _)
    have hinside : inside ++ Directive.closing.dropLast <+:
        x :: (text ++ Directive.closing ++ rest) := by
      rw [hrest, List.append_assoc, List.prefix_append_right_inj]
      exact (List.dropLast_prefix _).trans (List.prefix_append _ _)
    have hwithin : x :: (text ++ Directive.closing.dropLast) <+:
        inside ++ Directive.closing.dropLast := by
      refine List.prefix_of_prefix_length_le htext hinside ?_
      simp only [List.length_append, List.length_cons] at hlength ⊢
      omega
    -- the closing would come too early for the comment as well
    have hearlier := infix_of_infix_opening_append hhyphen hbracket hoccurs
    exact Text.not_infix_of_before? (by decide) hfirst
      (hearlier.trans hwithin.isInfix)
  · rintro ⟨hkind, hfirst⟩
    obtain ⟨inside, more, hchars, _, hinside, hwhole⟩ :=
      exists_inside_of_comment hfollows hlies hkind hopening hbracket
    have htext :
        Text.before? Directive.closing
          (x :: (text ++ Directive.closing ++ rest)) =
          some (x :: text) := by
      have hearlier : ¬ Directive.closing <:+:
          (x :: text) ++ Directive.closing.dropLast := by
        intro hoccurs
        exact hfirst
          (hoccurs.trans (List.suffix_append Directive.opening _).isInfix)
      exact Text.before?_append hearlier rest
    obtain rfl : x :: text = inside :=
      Option.some.inj (htext.symm.trans hinside)
    exact ⟨stretch, hkind, hchars ▸ hwhole⟩

end Document

theorem exists_follows_of_elements? {text : Cursor} {elements : List Element}
    (hread : elements? text = some elements) :
    ∃ d, Follows .content text (stretches text.rest) .content d ∧
      d.rest = [] := by
  simp only [elements?, Option.bind_eq_bind, Option.bind_eq_some_iff] at hread
  obtain ⟨document, hdocument, _⟩ := hread
  exact exists_follows_of_readDocument hdocument

end Xml

open Text (Cursor)

/-- Directives are found wherever their text stands, in a comment or not.  The
suppressions of a document are those of the directives in its lines.  What opens
a directive lies in something that encloses it and that the reader of its kind
passes over there: a comment, a literal section, an instruction, a declaration,
or a quoted text of the document type.  The text of the directive lies in a
comment just if that is a comment and the text has no closing before its end. -/
theorem directive_is_comment_unless_quoted (file source : String)
    {elements : List Xml.Element}
    (hread : Xml.elements? (Cursor.ofText source) = some elements) :
    (∃ last, Xml.Follows .content (Cursor.ofText source)
          (Xml.stretches source.toList) .content last ∧
        last.rest = []) ∧
      (∀ s, s ∈ readSuppressions file source ↔
        ∃ d front text, Directive.IsReadFrom source.toList front text d ∧
          s = d.suppression file (1 + front.count '\n')) ∧
      ∀ d front text, Directive.IsReadFrom source.toList front text d →
        ∃ stretch, Xml.LiesIn (Xml.stretches source.toList) front
          Directive.opening stretch ∧
          stretch.kind ≠ .plain ∧
          (Xml.InComment (Xml.stretches source.toList) front text ↔
            stretch.kind = .comment ∧ ¬ Directive.closing <:+:
              text.dropLast) := by
  obtain ⟨last, hfollows, hend⟩ := Xml.exists_follows_of_elements? hread
  refine ⟨⟨last, hfollows, hend⟩,
    mem_readSuppressions_iff_isReadFrom file source, ?_⟩
  intro d front text hdirective
  obtain ⟨rest, hsource⟩ := hdirective.exists_rest
  obtain ⟨x, inside, rfl, hhyphen, hbracket⟩ := hdirective.1.exists_inside
  have hopening : source.toList =
      front ++ Directive.opening ++
        (x :: inside ++ Directive.closing ++ rest) := by
    rw [hsource]
    simp only [List.append_assoc]
  obtain ⟨stretch, hlies, hplain⟩ :=
    Xml.exists_liesIn_of_opening (Nat.le_refl _) hopening
  exact ⟨stretch, hlies, hplain,
    Xml.inComment_iff hfollows hlies hsource hhyphen hbracket⟩

namespace QuotedDirectivesWitness

/-- The text before the directive. -/
def front : List Char := "<web><![CDATA[".toList

/-- The text of the directive. -/
def spelling : List Char :=
  "<!-- webcfg-guard:ignore-file * - quoted -->".toList

/-- A document that quotes a directive, as a manual would. -/
def text : String := String.ofList (front ++ spelling ++ "]]></web>".toList)

def directive : Directive where
  before := front
  word := .ignoreFile
  rule := ['*']
  reason := some "quoted".toList

theorem isSpelledBy_spelling : directive.IsSpelledBy spelling where
  rule_ne_nil := by decide
  rule_not_blank := Directive.not_blank_of_all (by decide +kernel)
  parts := by
    have hblank : ∀ c ∈ [' '] ++ [' '] ++ [' '], Text.isBlank c = true :=
      List.all_eq_true.mp (by decide)
    refine ⟨[' '], [' '], [' '], "- quoted -->".toList, by decide +kernel,
      hblank, by decide, [' '], "quoted ".toList, by decide,
      fun c hc => hblank c (List.mem_append_right _ hc), ?_, ?_⟩
    · decide +kernel
    · decide +kernel

theorem isReadFrom_directive :
    Directive.IsReadFrom text.toList front spelling directive := by
  have hline : Text.IsLine text.toList [] text.toList [] :=
    ⟨by simp, by simp [Text.EndsLine], by decide +kernel, by simp⟩
  have hread : Directive.ofLine? text.toList = some directive := by
    decide +kernel
  exact ⟨isSpelledBy_spelling, [], text.toList, [],
    text.toList.drop (front ++ spelling).length, hline, hread,
    by decide +kernel, rfl⟩

/-- The literal section around the directive. -/
def quotation : Xml.Stretch :=
  ⟨.literal, "<![CDATA[".toList ++ spelling ++ "]]>".toList⟩

theorem liesIn_quotation :
    Xml.LiesIn (Xml.stretches text.toList) front spelling quotation := by
  refine ⟨(Xml.stretches text.toList).take 5,
    (Xml.stretches text.toList).drop 6, "<![CDATA[".toList, "]]>".toList,
    ?_, ?_, rfl⟩
  · decide +kernel
  · decide +kernel

theorem not_inComment_directive :
    ¬ Xml.InComment (Xml.stretches text.toList) front spelling := by
  rintro ⟨comment, hkind, hcomment⟩
  obtain rfl := hcomment.unique liesIn_quotation (by decide) (by decide)
  contradiction

theorem text_is_accepted :
    ∃ elements, Xml.elements? (Cursor.ofText text) = some elements := by
  have hread : (Xml.elements? (Cursor.ofText text)).isSome = true := by
    decide +kernel
  exact Option.isSome_iff_exists.mp hread

theorem quoted_directive_suppresses :
    (∃ elements, Xml.elements? (Cursor.ofText text) = some elements) ∧
      (⟨"*", "quoted", "Web.config", 0, .file⟩ : Suppression) ∈
        readSuppressions "Web.config" text ∧
      ∃ stretch, Xml.LiesIn (Xml.stretches text.toList) front
        Directive.opening stretch ∧
        stretch.kind ≠ .plain ∧ stretch.kind ≠ .comment := by
  obtain ⟨elements, haccepted⟩ := text_is_accepted
  obtain ⟨_, hmem, hplace⟩ :=
    directive_is_comment_unless_quoted "Web.config" text haccepted
  obtain ⟨stretch, hlies, hplain, hcomment⟩ :=
    hplace directive front spelling isReadFrom_directive
  have hclosed : ¬ Directive.closing <:+: spelling.dropLast := by decide +kernel
  have hsuppression :
      directive.suppression "Web.config" (1 + front.count '\n') =
        ⟨"*", "quoted", "Web.config", 0, .file⟩ := by
    decide +kernel
  refine ⟨text_is_accepted,
    (hmem _).mpr ⟨directive, front, spelling, isReadFrom_directive, ?_⟩,
    stretch, hlies, hplain, ?_⟩
  · exact hsuppression.symm
  · exact fun hkind => not_inComment_directive (hcomment.mpr ⟨hkind, hclosed⟩)

/-- A suppression may come of a directive that does not lie in a comment. -/
theorem suppressing_text_is_no_comment :
    ¬ ∀ (file source : String) (elements : List Xml.Element) (s : Suppression)
        (d : Directive)
        (front text : List Char),
      Xml.elements? (Cursor.ofText source) = some elements →
        s ∈ readSuppressions file source →
        Directive.IsReadFrom source.toList front text d →
          s = d.suppression file (1 + front.count '\n') →
            Xml.InComment (Xml.stretches source.toList) front text := by
  intro hcommented
  obtain ⟨elements, haccepted⟩ := text_is_accepted
  have hmem : directive.suppression "Web.config" (1 + front.count '\n') ∈
      readSuppressions "Web.config" text :=
    (mem_readSuppressions_iff_isReadFrom _ _ _).mpr
      ⟨_, _, _, isReadFrom_directive, rfl⟩
  exact not_inComment_directive
    (hcommented "Web.config" text elements _ directive front spelling
      haccepted hmem isReadFrom_directive rfl)

end QuotedDirectivesWitness

end WebConfigAudit
