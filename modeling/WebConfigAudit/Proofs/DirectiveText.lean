import WebConfigAudit.Proofs.DirectivePlaces
import WebConfigAudit.Proofs.WrittenDirective
/-!
The text that a directive is read from.  It begins with the opening of a comment
and ends with a closing, and in between it has the mark, the directive word, the
rule, and the reason if there is one.
-/

namespace WebConfigAudit

open Text (LineTable byteCount isBlank trimStart trimEnd)

namespace Directive

/-- How the text of a directive ends: with the closing, or with a hyphen and the
reason up to the next closing. -/
def EndsWith (reason : Option (List Char)) (tail : List Char) : Prop :=
  match reason with
  | none => tail = closing
  | some reason => ∃ blanks raw, tail = '-' :: blanks ++ raw ++ closing ∧
      (∀ c ∈ blanks, isBlank c = true) ∧
      ¬ closing <:+: raw ++ closing.dropLast ∧
      trimEnd raw = reason

/-- The whole text that the directive is read from, with the blanks between its
parts. -/
structure IsSpelledBy (d : Directive) (text : List Char) : Prop where
  rule_ne_nil : d.rule ≠ []
  rule_not_blank : ∀ c ∈ d.rule, isBlank c = false
  parts : ∃ gap beforeRule afterRule tail,
    text = opening ++ gap ++ marker ++ d.word.text.toList ++ beforeRule ++
      d.rule ++ afterRule ++ tail ∧
      (∀ c ∈ gap ++ beforeRule ++ afterRule, isBlank c = true) ∧
      beforeRule ≠ [] ∧
      EndsWith d.reason tail

/-- The directive is the one of a line of the source, and is read from a text
that begins behind `front`. -/
def IsReadFrom (source front text : List Char) (d : Directive) : Prop :=
  d.IsSpelledBy text ∧ ∃ above line below after,
    Text.IsLine source above line below ∧
    ofLine? line = some d ∧ line = d.before ++ text ++ after ∧
    front = above ++ d.before

section Reading

variable {cs rest : List Char}

/-- Blanks and what comes after them. -/
theorem exists_blanks (cs : List Char) :
    ∃ blanks, cs = blanks ++ trimStart cs ∧ ∀ c ∈ blanks, isBlank c = true :=
  ⟨cs.takeWhile isBlank, List.takeWhile_append_dropWhile.symm,
    fun _ hc => List.mem_takeWhile_imp hc⟩

theorem eq_append_of_readWord? {word : DirectiveWord}
    (hread : readWord? cs = some (word, rest)) :
    cs = word.text.toList ++ rest := by
  simp only [readWord?, Option.bind_eq_bind, Option.bind_eq_some_iff] at hread
  obtain ⟨tail, hignore, hread⟩ := hread
  rw [Text.after?_eq_some_iff] at hignore
  subst hignore
  split at hread
  · next hfile =>
      cases hread
      rw [Text.after?_eq_some_iff] at hfile
      rw [hfile]
      rfl
  · split at hread
    · next hnext =>
        cases hread
        rw [Text.after?_eq_some_iff] at hnext
        rw [hnext]
        rfl
    · cases hread
      rfl

theorem exists_tail_of_readReason? {reason : Option (List Char)}
    (hread : readReason? cs = some reason) :
    ∃ blanks tail after, cs = blanks ++ tail ++ after ∧
      (∀ c ∈ blanks, isBlank c = true) ∧
      EndsWith reason tail := by
  obtain ⟨blanks, hcs, hblanks⟩ := exists_blanks cs
  unfold readReason? at hread
  split at hread
  · next rest hhyphen =>
      rw [hhyphen] at hcs
      split at hread
      · next raw hraw =>
          cases hread
          obtain ⟨more, hrest, hmore⟩ := exists_blanks rest
          obtain ⟨after, hafter⟩ := Text.exists_rest_of_before? hraw
          refine ⟨blanks, '-' :: more ++ raw ++ closing, after, ?_, hblanks,
            more, raw, rfl, hmore,
            Text.not_infix_of_before? (by decide) hraw, rfl⟩
          rw [hcs, hrest, hafter]
          simp
      · split at hread
        · next hclosing =>
            cases hread
            obtain ⟨after, hafter⟩ := List.isPrefixOf_iff_prefix.mp hclosing
            exact ⟨blanks, closing, after,
              by rw [hcs, ← hafter, List.append_assoc], hblanks, rfl⟩
        · contradiction
  · contradiction

/-- The rule that is read is a part of the word at its front, and the reason is
read behind it. -/
theorem exists_of_readRule? {word after rule : List Char}
    {reason : Option (List Char)} {length : Nat}
    (hread : readRule? word after length = some (rule, reason))
    (hlength : length ≤ word.length) :
    ∃ more, word = rule ++ more ∧ rule ≠ [] ∧
      readReason? (more ++ after) = some reason := by
  induction length with
  | zero => contradiction
  | succ length ih =>
      rw [readRule?] at hread
      split at hread
      · next hreason =>
          cases hread
          refine ⟨word.drop (length + 1), (List.take_append_drop _ _).symm,
            ?_, hreason⟩
          rw [← List.length_pos_iff, List.length_take]
          omega
      · exact ih hread (by omega)

theorem exists_text_of_readBody? {word : DirectiveWord} {d : Directive}
    (hread : readBody? word cs = some d) :
    ∃ beforeRule afterRule tail after,
      cs = beforeRule ++ d.rule ++ afterRule ++ tail ++ after ∧ d.word = word ∧
        d.rule ≠ [] ∧
        (∀ c ∈ d.rule, isBlank c = false) ∧
        (∀ c ∈ beforeRule ++ afterRule, isBlank c = true) ∧
        beforeRule ≠ [] ∧ EndsWith d.reason tail := by
  unfold readBody? at hread
  split at hread
  · contradiction
  · next hblanks =>
      obtain ⟨⟨rule, reason⟩, hrule, rfl⟩ := Option.map_eq_some_iff.mp hread
      have hname :=
        List.takeWhile_append_dropWhile (p := fun c => !isBlank c)
          (l := trimStart cs)
      obtain ⟨more, hword, hne, hreason⟩ :=
        exists_of_readRule? hrule (Nat.le_refl _)
      obtain ⟨afterRule, tail, after, hafter, hafterRule, htail⟩ :=
        exists_tail_of_readReason? hreason
      have hbefore : ∀ c ∈ cs.takeWhile isBlank, isBlank c = true := fun c hc =>
        List.mem_takeWhile_imp hc
      refine ⟨cs.takeWhile isBlank, afterRule, tail, after, ?_, rfl, hne, ?_,
        List.forall_mem_append.mpr ⟨hbefore, hafterRule⟩,
        by simpa using hblanks, htail⟩
      · have hrest : trimStart cs = rule ++ (more ++ (trimStart cs).drop
            ((trimStart cs).takeWhile fun c => !isBlank c).length) := by
          rw [← List.append_assoc, ← hword]
          exact (List.prefix_iff_eq_append.mp (List.takeWhile_prefix _)).symm
        rw [hafter] at hrest
        calc
          cs = cs.takeWhile isBlank ++ trimStart cs :=
            List.takeWhile_append_dropWhile.symm
          _ = _ := by rw [hrest]; simp
      · intro c hc
        have hmem : c ∈ (trimStart cs).takeWhile fun c => !isBlank c := by
          rw [hword]
          exact List.mem_append_left more hc
        simpa using List.mem_takeWhile_imp hmem

/-- What is read begins with the whole text of a directive. -/
theorem exists_text_of_readHere? {d : Directive}
    (hread : readHere? cs = some d) :
    ∃ text after, cs = text ++ after ∧ d.IsSpelledBy text := by
  rw [readHere?_eq] at hread
  obtain ⟨inside, hopening, hread⟩ := Option.bind_eq_some_iff.mp hread
  obtain ⟨afterMarker, hmarker, hread⟩ := Option.bind_eq_some_iff.mp hread
  obtain ⟨⟨word, body⟩, hword, hread⟩ := Option.bind_eq_some_iff.mp hread
  rw [Text.after?_eq_some_iff] at hopening hmarker
  dsimp only at hread
  obtain ⟨gap, hgap, hgapBlank⟩ := exists_blanks inside
  obtain ⟨beforeRule, afterRule, tail, after, hbody, rfl, hne, hplain, hblank,
      hbefore, htail⟩ :=
    exists_text_of_readBody? hread
  refine ⟨opening ++ gap ++ marker ++ d.word.text.toList ++ beforeRule ++
      d.rule ++ afterRule ++ tail,
    after, ?_, hne, hplain, gap, beforeRule, afterRule, tail, rfl, ?_,
    hbefore, htail⟩
  · rw [hopening, hgap, hmarker, eq_append_of_readWord? hword, hbody]
    simp only [List.append_assoc]
  · rw [List.append_assoc]
    exact List.forall_mem_append.mpr ⟨hgapBlank, hblank⟩

theorem exists_text_of_ofLine? {line : List Char} {d : Directive}
    (hread : ofLine? line = some d) :
    ∃ text after, line = d.before ++ text ++ after ∧ d.IsSpelledBy text := by
  obtain ⟨skipped, rest, found, rfl, hfound, rfl⟩ := exists_of_readFrom? hread
  obtain ⟨text, after, rfl, hspelled⟩ := exists_text_of_readHere? hfound
  exact ⟨text, after, by simp, hspelled.rule_ne_nil, hspelled.rule_not_blank,
    hspelled.parts⟩

end Reading

section Text

variable {d : Directive} {source front text : List Char}

/-- The text is a comment as far as its ends go, and begins with neither a
hyphen nor a bracket behind its opening. -/
theorem IsSpelledBy.exists_inside (hspelled : d.IsSpelledBy text) :
    ∃ x inside, text = opening ++ x :: inside ++ closing ∧ x ≠ '-' ∧
      x ≠ '>' := by
  obtain ⟨gap, beforeRule, afterRule, tail, rfl, hblank, _, htail⟩ :=
    hspelled.parts
  obtain ⟨more', rfl⟩ : ∃ more', tail = more' ++ closing := by
    unfold EndsWith at htail
    split at htail
    · exact ⟨[], htail⟩
    · obtain ⟨blanks, raw, rfl, _⟩ := htail
      exact ⟨_, rfl⟩
  have hgap : ∀ c ∈ gap, isBlank c = true := fun c hc => hblank c (by simp [hc])
  have hmarker : marker = 'w' :: marker.tail := rfl
  obtain ⟨more, hmore⟩ : ∃ more, opening ++ gap ++ marker ++
      d.word.text.toList ++ beforeRule ++ d.rule ++ afterRule ++
      (more' ++ closing) = opening ++ (gap ++ 'w' :: more) ++ closing :=
    ⟨marker.tail ++ (d.word.text.toList ++
      (beforeRule ++ (d.rule ++ (afterRule ++ more')))), by
        rw [hmarker]
        simp only [List.append_assoc, List.cons_append, List.tail_cons]⟩
  rw [hmore]
  cases gap with
  | nil => exact ⟨'w', more, rfl, by decide, by decide⟩
  | cons x gap =>
      have hx := hgap x List.mem_cons_self
      refine ⟨x, gap ++ 'w' :: more, rfl, ?_, ?_⟩
      · rintro rfl
        contradiction
      · rintro rfl
        contradiction

theorem IsReadFrom.exists_rest (hread : IsReadFrom source front text d) :
    ∃ rest, source = front ++ text ++ rest := by
  obtain ⟨_, above, line, below, after, hline, _, rfl, rfl⟩ := hread
  exact ⟨after ++ below, by rw [hline.split]; simp⟩

theorem IsReadFrom.standsAt (hread : IsReadFrom source front text d) :
    d.StandsAt source (byteCount front) := by
  obtain ⟨_, above, line, below, _, hline, hread, _, rfl⟩ := hread
  exact ⟨above, line, below, hline, hread, rfl⟩

theorem StandsAt.exists_isReadFrom {offset : Nat}
    (hstands : d.StandsAt source offset) :
    ∃ front text, IsReadFrom source front text d ∧
      offset = byteCount front := by
  obtain ⟨above, line, below, hline, hread, rfl⟩ := hstands
  obtain ⟨text, after, hsplit, hspelled⟩ := exists_text_of_ofLine? hread
  exact ⟨above ++ d.before, text,
    ⟨hspelled, above, line, below, after, hline, hread, hsplit, rfl⟩, rfl⟩

/-- Lines count from one, so the number of a directive's line is one more than
that of the line feeds before it. -/
theorem IsReadFrom.line_position (hread : IsReadFrom source front text d) :
    ((LineTable.of source).position (byteCount front)).line =
      1 + front.count '\n' := by
  obtain ⟨rest, hsource⟩ := hread.exists_rest
  rw [LineTable.line_position
    ⟨text ++ rest, by rw [hsource, List.append_assoc]⟩, Nat.add_comm]

end Text

end Directive

/-- The suppressions of a text are those of the directives that are read from
it. -/
theorem mem_readSuppressions_iff_isReadFrom (file source : String)
    (s : Suppression) :
    s ∈ readSuppressions file source ↔
      ∃ d front text, Directive.IsReadFrom source.toList front text d ∧
        s = d.suppression file (1 + front.count '\n') := by
  rw [mem_readSuppressions_iff]
  constructor
  · rintro ⟨d, offset, hstands, rfl⟩
    obtain ⟨front, text, hread, rfl⟩ := hstands.exists_isReadFrom
    exact ⟨d, front, text, hread, by rw [hread.line_position]⟩
  · rintro ⟨d, front, text, hread, rfl⟩
    exact ⟨d, _, hread.standsAt, by rw [hread.line_position]⟩

end WebConfigAudit
