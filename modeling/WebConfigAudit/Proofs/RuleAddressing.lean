import WebConfigAudit.Proofs.AcceptedContract
import WebConfigAudit.Proofs.CommentedLine
import WebConfigAudit.Proofs.DirectiveText
import WebConfigAudit.Proofs.LetterCase
/-!
Which rules a directive addresses.  A directive names its rule by a word, and
names are compared without regard to the case of letters; contracts tell rules
apart by their exact names, which may have blanks in them.  So a comment with
the name of a rule takes that rule's violations just if the name is one word,
and those of other rules whose names differ from it in the case of letters.
-/

namespace WebConfigAudit

open Text (isBlank sameLetters)

namespace Suppression

variable {s : Suppression} {file source id : String}

/-- What is read as the name of a rule is one word. -/
theorem rule_not_blank_of_mem (hs : s ∈ readSuppressions file source) :
    ∀ c ∈ s.rule.toList, isBlank c = false := by
  obtain ⟨d, _, _, ⟨hspelled, _⟩, rfl⟩ :=
    (mem_readSuppressions_iff_isReadFrom file source s).mp hs
  intro c hc
  apply hspelled.rule_not_blank c
  simpa [Directive.suppression] using hc

theorem names_iff (s : Suppression) (rule : String) :
    s.names rule = true ↔ s.rule = "*" ∨ sameLetters s.rule rule = true := by
  simp [names]

/-- A name with a blank in it is covered only by a suppression of all rules. -/
theorem rule_eq_star_of_names (hs : s ∈ readSuppressions file source)
    (hblank : ∃ c ∈ id.toList, isBlank c = true) (hnames : s.names id = true) :
    s.rule = "*" := by
  rcases (names_iff s id).mp hnames with hstar | hsame
  · exact hstar
  · obtain ⟨c, hc, hblank⟩ := hblank
    rw [Text.sameLetters_iff] at hsame
    have hlower : c.toLower ∈ s.rule.toList.map Char.toLower := by
      rw [hsame]
      exact List.mem_map_of_mem hc
    obtain ⟨c', hc', hletter⟩ := List.mem_map.mp hlower
    have hplain := rule_not_blank_of_mem hs c' hc'
    rw [Text.isBlank_eq_of_toLower_eq hletter, hblank] at hplain
    contradiction

/-- A suppression of a whole file applies to what it names there. -/
theorem applies_iff_of_file {v : Violation} (hscope : s.scope = .file)
    (hfile : v.file = s.file) :
    s.applies v = true ↔ s.rule = "*" ∨ sameLetters s.rule v.rule = true := by
  rw [← names_iff]
  simp [applies, covers, hscope, hfile]

end Suppression

/-- The comment that turns a rule off in its file, by the name of the rule. -/
def commentOn (id : String) : String :=
  "<!-- webcfg-guard:ignore-file " ++ id ++ " -->"

/-- The same for a name that is one word, as a directive comment. -/
def DirectiveComment.on (id : String) (hne : id.toList ≠ [])
    (hword : ∀ c ∈ id.toList, isBlank c = false) : DirectiveComment where
  word := .ignoreFile
  rule := id.toList
  reason := none
  rule_ne_nil := hne
  rule_not_blank := hword
  reason_open := DirectiveComment.no_reason_open

theorem toList_commentOn {id : String} (hne : id.toList ≠ [])
    (hword : ∀ c ∈ id.toList, isBlank c = false) :
    (commentOn id).toList = (DirectiveComment.on id hne hword).chars := by
  have hopening : "<!-- webcfg-guard:ignore-file ".toList =
      "<!-- webcfg-guard:".toList ++ DirectiveWord.ignoreFile.text.toList ++
        [' '] := by
    decide +kernel
  unfold commentOn DirectiveComment.chars DirectiveComment.reasonChars
    DirectiveComment.on
  rw [String.toList_append, String.toList_append, hopening]
  simp only [List.append_assoc, List.nil_append, List.cons_append]

/-- A rule of an accepted contract is addressed by its name if that is one word:
on any line on which no other directive comes before it, the comment is read as
a suppression, which applies to the violations of the file whose rule has that
name but for the case of letters, and to all if the name is a star.  So if no
other rule of the contract has such a name, it applies to the violations of the
one rule and of no other.  A rule with a blank in its name is not addressed by
any directive but one for all rules. -/
theorem comment_addresses_rule (contract : Contract) (rules : RuleSet)
    (haccepted : contract.compile = .ok rules) (id : String)
    (hid : id ∈ rules.ids) :
    ((∀ c ∈ id.toList, isBlank c = false) →
      ∀ (file source : String) (above before after below : List Char),
        Text.IsLine source.toList above
          (before ++ (commentOn id).toList ++ after) below →
        ¬ Directive.marker <:+: before →
          ∃ s, readSuppressions file source =
              suppressionsFrom file 1 above ++
                s :: suppressionsFrom file (1 + above.count '\n' + 1)
                  (below.drop 1) ∧
            (∀ v : Violation, v.file = file →
              (s.applies v = true ↔ id = "*" ∨ sameLetters id v.rule = true)) ∧
            (id ≠ "*" → (∀ other ∈ rules.ids, sameLetters id other = true →
              other = id) →
              ∀ v : Violation, v.file = file → v.rule ∈ rules.ids →
                (s.applies v = true ↔ v.rule = id))) ∧
    ((∃ c ∈ id.toList, isBlank c = true) →
      ∀ (file source : String), ∀ s ∈ readSuppressions file source,
        s.names id = true → s.rule = "*") := by
  constructor
  · intro hword file source above before after below hline hbefore
    have hne : id.toList ≠ [] := by
      intro hnil
      have hname := Contract.isBlankText_of_mem_ids haccepted hid
      simp [Text.isBlankText, hnil] at hname
    rw [toList_commentOn hne hword] at hline
    let s := ((DirectiveComment.on id hne hword).directive before
      after).suppression file
      (1 + above.count '\n')
    have hrule : s.rule = id := String.ofList_toList
    have happlies : ∀ v : Violation, v.file = file →
        (s.applies v = true ↔ id = "*" ∨ sameLetters id v.rule = true) := by
      intro v hfile
      have hiff := Suppression.applies_iff_of_file (s := s) rfl hfile
      rwa [hrule] at hiff
    refine ⟨s, ?_, happlies, ?_⟩
    · rw [readSuppressions_of_isLine hline,
        DirectiveComment.lineSuppression?_append _ hbefore, List.append_assoc]
      rfl
    · intro hstar halone v hfile hv
      rw [happlies v hfile]
      constructor
      · rintro (hall | hsame)
        · exact absurd hall hstar
        · exact halone v.rule hv hsame
      · rintro rfl
        exact Or.inr (Text.sameLetters_refl v.rule)
  · intro hblank file source s hs hnames
    exact Suppression.rule_eq_star_of_names hs hblank hnames

namespace RuleAddressingWitness

/-- A rule against tracing, under the given name. -/
def spec (id : String) : RuleSpec where
  id := id
  checks :=
    [{ tag := .trace, attributeName := "enabled", domain := .string
       policy := some .forbiddenValue, value := some (.text "true") }]

/-- A name of one word, and one of two. -/
def contract : Contract where
  rules := [spec "AvoidTracing", spec "Avoid tracing"]

def rules : RuleSet := contract.compile.toOption.getD {}

theorem compile_contract : contract.compile = .ok rules :=
  eq_ok_of_isOk {} (by decide +kernel)

def above : List Char := "<web>".toList ++ ['\n']

def after : List Char := " <!-- until spring -->".toList

def text : String :=
  String.ofList
    (above ++ ([] ++ (commentOn "AvoidTracing").toList ++ after) ++ [])

theorem isLine_comment :
    Text.IsLine text.toList above
      ([] ++ (commentOn "AvoidTracing").toList ++ after) [] where
  split := String.toList_ofList
  endsLine := (Text.endsLine_concat_iff _).mpr rfl
  unbroken := by decide +kernel
  stops := by simp

theorem one_word_is_addressed :
    contract.compile = .ok rules ∧ "AvoidTracing" ∈ rules.ids ∧
      "Avoid tracing" ∈ rules.ids ∧
      (∃ s, readSuppressions "Web.config" text = [s] ∧
        ∀ v : Violation, v.file = "Web.config" → v.rule ∈ rules.ids →
          (s.applies v = true ↔ v.rule = "AvoidTracing")) ∧
      ∀ s ∈ readSuppressions "Web.config" text, s.names "Avoid tracing" = true →
        s.rule = "*" := by
  have hone : "AvoidTracing" ∈ rules.ids := by decide +kernel
  have htwo : "Avoid tracing" ∈ rules.ids := by decide +kernel
  have hword : ∀ c ∈ "AvoidTracing".toList, isBlank c = false := by
    decide +kernel
  have hblank : ∃ c ∈ "Avoid tracing".toList, isBlank c = true :=
    ⟨' ', by decide +kernel, by decide +kernel⟩
  have halone : ∀ other ∈ rules.ids, sameLetters "AvoidTracing" other = true →
      other = "AvoidTracing" := by
    decide +kernel
  have habove : suppressionsFrom "Web.config" 1 above = [] := by decide +kernel
  obtain ⟨haddressed, _⟩ :=
    comment_addresses_rule contract rules compile_contract _ hone
  obtain ⟨_, hpassed⟩ :=
    comment_addresses_rule contract rules compile_contract _ htwo
  obtain ⟨s, hread, _, happlies⟩ :=
    haddressed hword "Web.config" text above [] after []
      isLine_comment (by decide)
  rw [habove] at hread
  exact ⟨compile_contract, hone, htwo, ⟨s, hread, happlies (by decide) halone⟩,
    hpassed hblank "Web.config" text⟩

/-- Names that a directive does not address alone, and one that no directive
addresses. -/
def looseContract : Contract where
  rules := [spec "AvoidTracing", spec "AVOIDTRACING", spec "*",
    spec "Avoid tracing"]

def looseRules : RuleSet := looseContract.compile.toOption.getD {}

/-- A violation of a rule somewhere in the file. -/
def violation (rule : String) : Violation :=
  ⟨"Web.config", rule, Span.nowhere, "tracing"⟩

/-- The case of letters, a star and a blank each make the comment miss the one
rule. -/
theorem names_need_not_address_one_rule :
    looseContract.compile = .ok looseRules ∧
      ∀ id ∈ ["AvoidTracing", "*", "Avoid tracing"], id ∈ looseRules.ids ∧
        ¬ ∀ v : Violation, v.file = "Web.config" →
          ∃ s, readSuppressions "Web.config" (commentOn id) = [s] ∧
            (s.applies v = true ↔ v.rule = id) := by
  have hcompile : looseContract.compile = .ok looseRules :=
    eq_ok_of_isOk {} (by decide +kernel)
  refine ⟨hcompile, ?_⟩
  simp only [List.forall_mem_cons]
  refine ⟨⟨by decide +kernel, ?_⟩, ⟨by decide +kernel, ?_⟩,
    ⟨by decide +kernel, ?_⟩, by simp⟩
  · intro haddressed
    obtain ⟨s, hread, happlies⟩ := haddressed (violation "AVOIDTRACING") rfl
    have hsame : readSuppressions "Web.config" (commentOn "AvoidTracing") =
        [⟨"AvoidTracing", "", "Web.config", 0, .file⟩] := by
      decide +kernel
    obtain rfl : ⟨"AvoidTracing", "", "Web.config", 0, .file⟩ = s :=
      List.singleton_inj.mp (hsame.symm.trans hread)
    exact absurd (happlies.mp (by decide +kernel)) (by decide)
  · intro haddressed
    obtain ⟨s, hread, happlies⟩ := haddressed (violation "AvoidTracing") rfl
    have hstar : readSuppressions "Web.config" (commentOn "*") =
        [⟨"*", "", "Web.config", 0, .file⟩] := by
      decide +kernel
    obtain rfl : ⟨"*", "", "Web.config", 0, .file⟩ = s :=
      List.singleton_inj.mp (hstar.symm.trans hread)
    exact absurd (happlies.mp (by decide +kernel)) (by decide)
  · intro haddressed
    obtain ⟨s, hread, _⟩ := haddressed (violation "Avoid tracing") rfl
    have hnothing :
        readSuppressions "Web.config" (commentOn "Avoid tracing") = [] := by
      decide +kernel
    rw [hnothing] at hread
    exact absurd hread.symm (List.cons_ne_nil s [])

end RuleAddressingWitness

end WebConfigAudit
