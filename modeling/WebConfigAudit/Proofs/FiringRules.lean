import WebConfigAudit.Proofs.CompleteNodes
import WebConfigAudit.Proofs.ContractMeaning
import WebConfigAudit.Proofs.DescribedViolations
import WebConfigAudit.Proofs.Spelling
/-!
Which rules on two elements can be violated at all.  An affirmative value must
fit into quotes, so it must lack one kind of quote mark, and the element that
has it must not grant the exception to itself.  For every such value there are
nodes on which the rule is reported, and without one there are none.
-/

namespace WebConfigAudit

open Text (lowerChars)

/-- The text fits into quotes of one kind or the other. -/
def IsQuotable (s : String) : Prop :=
  ∃ mark, (mark = '"' ∨ mark = '\'') ∧ mark ∉ s.toList

/-- An element that has the value as the anchor's attribute has it as the
countermand's as well, and that is the value that the countermand asks for. -/
structure CompoundRule.GrantsItself (rule : CompoundRule) (value : String) :
    Prop where
  tag : rule.countermand.tag = rule.anchor.tag
  name : lowerChars rule.countermand.attributeName.toList =
    lowerChars rule.anchor.attributeName.toList
  value : rule.countermand.value = value

/-- The walk over some complete nodes reports the rule. -/
def CompoundRule.CanFire (rule : CompoundRule) (rules : RuleSet)
    (file : String) : Prop :=
  ∃ nodes, (∀ node ∈ nodes, node.IsComplete) ∧
    ∃ v ∈ (walkNodes rules file nodes []).1, v.rule = rule.id

/-! Quote marks in values -/

theorem isQuoteMark_of_eq {mark : Char} (hmark : mark = '"' ∨ mark = '\'') :
    isQuoteMark mark = true := by
  rcases hmark with rfl | rfl
  · rfl
  · rfl

theorem mem_dropWhile_of_not {α : Type} {p : α → Bool} {a : α}
    (hother : p a = false) {as : List α} (ha : a ∈ as) :
    a ∈ as.dropWhile p := by
  rw [← List.takeWhile_append_dropWhile (p := p) (l := as), List.mem_append]
    at ha
  refine ha.resolve_left fun hpassed => ?_
  rw [List.mem_takeWhile_imp hpassed] at hother
  contradiction

theorem Text.mem_trimChars_iff {c : Char} (hc : Text.isBlank c = false)
    {cs : List Char} : c ∈ Text.trimChars cs ↔ c ∈ cs := by
  rw [Text.trimChars, Text.trimEnd, List.mem_reverse]
  constructor
  · intro hmem
    have hreversed := (List.dropWhile_suffix _).mem hmem
    exact (List.dropWhile_suffix _).mem (List.mem_reverse.mp hreversed)
  · intro hmem
    exact mem_dropWhile_of_not hc
      (List.mem_reverse.mpr (mem_dropWhile_of_not hc hmem))

/-- Neither trimming nor lower-casing touches a quote mark. -/
theorem mem_normalize_iff {mark : Char} (hmark : mark = '"' ∨ mark = '\'')
    {s : String} : mark ∈ (normalize s).toList ↔ mark ∈ s.toList := by
  have hsign : mark.toNat < 0x41 ∧ Text.isBlank mark = false := by
    rcases hmark with rfl | rfl
    · decide
    · decide
  rw [normalize, Text.lowercase, Text.trim, String.toList_ofList,
    String.toList_ofList, Text.mem_lowerChars_iff hsign.1,
    Text.mem_trimChars_iff hsign.2]

/-- A value token in quotes is compared as the text inside. -/
theorem AttributeMatch.normalizedValue_eq {found : AttributeMatch} {mark : Char}
    {s : String} (hmark : mark = '"' ∨ mark = '\'')
    (hquoted : found.value.text.toList = mark :: s.toList ++ [mark]) :
    found.normalizedValue = normalize s := by
  rw [normalizedValue, valueText, stripQuotes, hquoted,
    stripQuoteMarks_quoted (isQuoteMark_of_eq hmark), String.ofList_toList,
    normalize]

/-- The value of an attribute that is found on a complete node is the normal
form of a quotable text. -/
theorem Node.IsComplete.isQuotable_of_findAttribute? {node : Node}
    (hcomplete : node.IsComplete) {name : String} {found : AttributeMatch}
    (hfound : node.findAttribute? name = .ok (some found)) :
    IsQuotable found.normalizedValue := by
  obtain ⟨token, statements, hchildren, htoken, hstatements⟩ :=
    hcomplete.children
  rw [Node.findAttribute?_eq, Node.settledAttribute?] at hfound
  split at hfound
  · cases hfound
  · next statement hsettled =>
      have hmem := List.mem_of_find?_eq_some hsettled
      have hsettles := List.find?_some hsettled
      rw [Node.settles, Bool.and_eq_true, beq_iff_eq] at hsettles
      rw [hchildren, List.mem_cons] at hmem
      rcases hmem with rfl | hmem
      · rw [htoken] at hsettles
        exact absurd hsettles.1 NodeKind.noConfusion
      · obtain ⟨name, value, htokens, _, _, mark, inside, hmark, hinside,
            hvalue⟩ :=
          (hstatements statement hmem).tokens
        rw [Node.tokens, htokens] at hfound
        cases hfound
        refine ⟨mark, hmark, ?_⟩
        have hsame :
            (⟨statement, name, value⟩ : AttributeMatch).normalizedValue = _ :=
          AttributeMatch.normalizedValue_eq (s := String.ofList inside) hmark
            (by rwa [String.toList_ofList])
        rwa [hsame, mem_normalize_iff hmark, String.toList_ofList]

/-! What a report of the rule says of the nodes -/

section Report

variable {rules : RuleSet} {rule : CompoundRule} {file : String}
  {nodes : List Node}

/-- A report by the name of the rule is its own verdict, since no other rule has
the name. -/
theorem CompoundRule.reported_iff (hnodup : rules.ids.Nodup)
    (hrule : rule ∈ rules.compoundRules) :
    (∃ v ∈ (walkNodes rules file nodes []).1, v.rule = rule.id) ↔
      nodes.any rule.isAnchor = true ∧ nodes.any rule.countermands = false := by
  have hentry : SomeRule.compound rule ∈ rules.entries :=
    List.mem_append_right _ (List.mem_map_of_mem hrule)
  have hverdict : (rule.report? file nodes).isSome = true ↔
      nodes.any rule.isAnchor = true ∧ nodes.any rule.countermands = false := by
    rw [report?, Option.isSome_map, Evidence.after_verdict_isSome,
      Bool.and_eq_true, Bool.not_eq_true']
  rw [walkNodes_eq, List.nil_append, ← hverdict]
  constructor
  · rintro ⟨v, hv, hname⟩
    obtain ⟨reporter, hreporter, hreports⟩ := RuleSet.mem_reports_iff.mp hv
    have honly := RuleSet.filter_entries hnodup hentry
    have hsame :
        reporter ∈ rules.entries.filter (SomeRule.id · == rule.id) := by
      rw [List.mem_filter, beq_iff_eq, ← SomeRule.rule_of_reports hreports]
      exact ⟨hreporter, hname⟩
    change rules.entries.filter (SomeRule.id · == rule.id) = _ at honly
    rw [honly, List.mem_singleton] at hsame
    subst hsame
    exact Option.isSome_iff_exists.mpr ⟨v, hreports⟩
  · intro hsome
    obtain ⟨v, hv⟩ := Option.isSome_iff_exists.mp hsome
    exact ⟨v, RuleSet.mem_reports_iff.mpr ⟨_, hentry, hv⟩,
      CompoundRule.rule_of_report? hv⟩

/-- An element with the value that the rule grants to itself is no evidence
against anyone. -/
theorem CompoundRule.countermands_of_grantsItself {node : Node}
    {found : AttributeMatch} (hkind : node.kind = .element rule.anchor.tag)
    (hfound : node.findAttribute? rule.anchor.attributeName = .ok (some found))
    (hgrants : rule.GrantsItself found.normalizedValue) :
    rule.countermands node = true := by
  have hsame : node.findAttribute? rule.countermand.attributeName =
      .ok (some found) := by
    rw [Node.findAttribute?_eq, hgrants.name, ← Node.findAttribute?_eq, hfound]
  have hfails : rule.anchorFails node = false := by
    rw [anchorFails, Bool.eq_false_iff, ne_eq, Node.failsLookup_eq_true_iff]
    rintro ⟨_, e, he⟩
    rw [hfound] at he
    contradiction
  have hvalue : rule.isCountermand node = true := by
    rw [isCountermand, Node.hasValue_eq_true_iff]
    exact ⟨hgrants.tag ▸ hkind, found, hsame, beq_iff_eq.mpr hgrants.value.symm⟩
  rw [countermands, hvalue, hfails]
  rfl

/-- A rule that is reported on complete nodes has an affirmative value that fits
into quotes and is not granted by the very element that has it. -/
theorem CompoundRule.exists_value_of_canFire (hnodup : rules.ids.Nodup)
    (hrule : rule ∈ rules.compoundRules) (hfires : rule.CanFire rules file) :
    ∃ value ∈ rule.anchor.affirmative, IsQuotable value ∧
      ¬ rule.GrantsItself value := by
  obtain ⟨nodes, hcomplete, hreported⟩ := hfires
  obtain ⟨hanchor, hcountermand⟩ := (reported_iff hnodup hrule).mp hreported
  obtain ⟨node, hnode, hanchor⟩ := List.any_eq_true.mp hanchor
  obtain ⟨hkind, found, hfound, hvalue⟩ := Node.hasValue_eq_true_iff.mp hanchor
  refine ⟨found.normalizedValue, List.contains_iff_mem.mp hvalue,
    (hcomplete node hnode).isQuotable_of_findAttribute? hfound,
    fun hgrants => ?_⟩
  have hgranted := countermands_of_grantsItself hkind hfound hgrants
  rw [List.any_eq_false] at hcountermand
  exact hcountermand node hnode hgranted

end Report

/-! An element on which the rule is reported -/

/-- An element with the given attributes, each value in the given quotes. -/
def Node.elementWith (tag : Tag) (mark : Char)
    (attributes : List (String × String)) : Node :=
  { Node.element tag Span.nowhere with
    children :=
      { kind := .tagName, text := tag.elementName, span := Span.nowhere } ::
        attributes.map fun pair =>
          Node.statement pair.1
            (String.ofList (mark :: pair.2.toList ++ [mark])) Span.nowhere
            Span.nowhere }

/-- The first attribute whose name begins with the one that is looked for,
without regard to case. -/
def firstNamed? (name : String) (attributes : List (String × String)) :
    Option (String × String) :=
  attributes.find? fun pair =>
    (lowerChars name.toList).isPrefixOf (lowerChars pair.1.toList)

/-- A statement with both its tokens settles a look-up by its name alone. -/
theorem findStatement_statement (wanted : List Char) (name value : String)
    (nameSpan valueSpan : Span) (rest : List Node) :
    findStatement wanted
        (Node.statement name value nameSpan valueSpan :: rest) =
      if wanted.isPrefixOf (lowerChars name.toList) = true then
        .ok (some
          { statement := Node.statement name value nameSpan valueSpan
            name := { kind := .attributeName, text := name, span := nameSpan }
            value := { kind := .attributeValue, text := value,
                       span := valueSpan } })
      else findStatement wanted rest := by
  simp [findStatement, Node.statement, nameBegins]

section Element

variable {tag : Tag} {mark : Char} {attributes : List (String × String)}

theorem Node.isComplete_elementWith (hmark : mark = '"' ∨ mark = '\'')
    (hquotable : ∀ pair ∈ attributes, mark ∉ pair.2.toList) :
    (Node.elementWith tag mark attributes).IsComplete where
  kind := ⟨tag, rfl⟩
  children := by
    refine ⟨_, _, rfl, rfl, ?_⟩
    rw [List.forall_mem_map]
    intro pair hpair
    exact ⟨rfl, _, _, rfl, rfl, rfl, mark, pair.2.toList, hmark,
      hquotable pair hpair, String.toList_ofList⟩

/-- That attribute is found, and compared as the text inside its quotes. -/
theorem Node.findAttribute?_elementWith (hmark : mark = '"' ∨ mark = '\'')
    (name : String) :
    ((Node.elementWith tag mark attributes).findAttribute? name).map
        (Option.map AttributeMatch.normalizedValue) =
      .ok ((firstNamed? name attributes).map fun pair => normalize pair.2) := by
  have hskip : ∀ statements, findStatement (lowerChars name.toList)
      ({ kind := .tagName, text := tag.elementName, span := Span.nowhere } ::
        statements) =
        findStatement (lowerChars name.toList) statements := by
    intro statements
    rw [findStatement, if_neg (by simp)]
  rw [Node.findAttribute?, Node.elementWith, hskip]
  induction attributes with
  | nil => rfl
  | cons pair attributes ih =>
      rw [List.map_cons, findStatement_statement]
      by_cases hbegins :
          (lowerChars name.toList).isPrefixOf (lowerChars pair.1.toList) = true
      · have hfirst : firstNamed? name (pair :: attributes) = some pair :=
          List.find?_cons_of_pos hbegins
        rw [if_pos hbegins, hfirst]
        simp only [Except.map, Option.map_some, Except.ok.injEq,
          Option.some.injEq]
        exact AttributeMatch.normalizedValue_eq hmark String.toList_ofList
      · have hlater : firstNamed? name (pair :: attributes) =
            firstNamed? name attributes :=
          List.find?_cons_of_neg hbegins
        rw [if_neg hbegins, hlater, ih]

/-- Whether such an element has a value, by its list of attributes. -/
theorem Node.hasValue_elementWith (hmark : mark = '"' ∨ mark = '\'')
    (wanted : Tag) (name : String) (accepts : String → Bool) :
    (Node.elementWith tag mark attributes).hasValue wanted name accepts =
      (decide (tag = wanted) &&
        (firstNamed? name attributes).any fun pair =>
          accepts (normalize pair.2)) := by
  have hkind : (Node.elementWith tag mark attributes).kind = .element tag := rfl
  have hlookup :
      ((Node.elementWith tag mark attributes).findAttribute? name).map
        (Option.map AttributeMatch.normalizedValue) = _ :=
    Node.findAttribute?_elementWith hmark name
  rw [hasValue, attributeAs?, hkind]
  by_cases htag : tag = wanted
  · subst htag
    rw [if_pos rfl]
    generalize firstNamed? name attributes = pair? at hlookup ⊢
    rcases hfound : (Node.elementWith tag mark attributes).findAttribute? name
      with e | found?
    · rw [hfound] at hlookup
      contradiction
    · rw [hfound, Except.map, Except.ok.injEq] at hlookup
      cases found? with
      | none =>
          cases pair? with
          | none => simp
          | some pair => simp at hlookup
      | some found =>
          cases pair? with
          | none => simp at hlookup
          | some pair =>
              rw [Option.map_some, Option.map_some, Option.some.injEq]
                at hlookup
              simp [hlookup]
  · rw [if_neg (by simpa using htag)]
    simp [htag]

end Element

/-- A text other than a given one, without quote marks, and the same after
trimming and in lower case. -/
def otherThan (value : String) : String :=
  if value = "x" then "" else "x"

theorem normalize_otherThan (value : String) :
    normalize (otherThan value) ≠ value := by
  unfold otherThan
  split
  · next hvalue =>
      rw [hvalue]
      decide
  · next hvalue =>
      rw [show normalize "x" = "x" by decide]
      exact Ne.symm hvalue

theorem not_mem_otherThan {mark : Char} (hmark : mark = '"' ∨ mark = '\'')
    (value : String) : mark ∉ (otherThan value).toList := by
  unfold otherThan
  rcases hmark with rfl | rfl
  · split <;> decide
  · split <;> decide

/-- For a text that fits into quotes and is not granted to itself, some element
is an anchor with it and no countermand. -/
theorem CompoundRule.exists_anchor {rule : CompoundRule} {s : String}
    (hvalue : normalize s ∈ rule.anchor.affirmative)
    (hquotable : IsQuotable (normalize s))
    (hother : ¬ rule.GrantsItself (normalize s)) :
    ∃ node : Node, node.IsComplete ∧ rule.isAnchor node = true ∧
      rule.isCountermand node = false := by
  obtain ⟨mark, hmark, hinside⟩ := hquotable
  rw [mem_normalize_iff hmark] at hinside
  have hself : (lowerChars rule.anchor.attributeName.toList).isPrefixOf
      (lowerChars rule.anchor.attributeName.toList) = true := by
    rw [List.isPrefixOf_iff_prefix]
  have hcontains : rule.anchor.affirmative.contains (normalize s) = true :=
    List.contains_iff_mem.mpr hvalue
  by_cases hshadow : rule.countermand.tag = rule.anchor.tag ∧
      rule.countermand.value = normalize s ∧
      (lowerChars rule.countermand.attributeName.toList).isPrefixOf
        (lowerChars rule.anchor.attributeName.toList) = true
  · -- the countermand's own attribute comes first and has another value
    obtain ⟨htag, hsame, hbegins⟩ := hshadow
    have hanchor : (lowerChars rule.anchor.attributeName.toList).isPrefixOf
        (lowerChars rule.countermand.attributeName.toList) = false := by
      rw [Bool.eq_false_iff, ne_eq, List.isPrefixOf_iff_prefix]
      rw [List.isPrefixOf_iff_prefix] at hbegins
      intro hback
      exact hother ⟨htag, hbegins.eq_of_length_le hback.length_le, hsame⟩
    refine ⟨Node.elementWith rule.anchor.tag mark
      [(rule.countermand.attributeName, otherThan rule.countermand.value),
        (rule.anchor.attributeName, s)],
      Node.isComplete_elementWith hmark ?_, ?_, ?_⟩
    · simpa using ⟨not_mem_otherThan hmark _, hinside⟩
    · rw [isAnchor, Node.hasValue_elementWith hmark]
      simp [firstNamed?, hanchor, hself, hvalue]
    · rw [isCountermand, Node.hasValue_elementWith hmark]
      have hfirst :
          (lowerChars rule.countermand.attributeName.toList).isPrefixOf
            (lowerChars rule.countermand.attributeName.toList) = true := by
        rw [List.isPrefixOf_iff_prefix]
      simp [firstNamed?, hfirst, normalize_otherThan]
  · refine ⟨Node.elementWith rule.anchor.tag mark
        [(rule.anchor.attributeName, s)],
      Node.isComplete_elementWith hmark (by simpa using hinside), ?_, ?_⟩
    · rw [isAnchor, Node.hasValue_elementWith hmark]
      simp [firstNamed?, hself, hvalue]
    · rw [isCountermand, Node.hasValue_elementWith hmark,
        Bool.eq_false_iff, ne_eq, Bool.and_eq_true, decide_eq_true_eq]
      rintro ⟨htag, hsame⟩
      obtain ⟨pair, hpair, hsame⟩ := (Option.any_eq_true _ _).mp hsame
      have hbegins := List.find?_some hpair
      rw [List.mem_singleton.mp (List.mem_of_find?_eq_some hpair)]
        at hsame hbegins
      exact hshadow ⟨htag.symm, (beq_iff_eq.mp hsame).symm, hbegins⟩

/-- The affirmative values of every rule are kept normalized, the built-in one's
among them. -/
theorem Contract.exists_text_of_affirmative {contract : Contract}
    {rules : RuleSet} (haccepted : contract.compile = .ok rules)
    {rule : CompoundRule} (hrule : rule ∈ rules.compoundRules) {value : String}
    (hvalue : value ∈ rule.anchor.affirmative) : ∃ s, normalize s = value := by
  have hof : ∀ tag name texts, value ∈ (Anchor.of tag name texts).affirmative →
      ∃ s, normalize s = value := by
    intro tag name texts hmem
    obtain ⟨s, _, hs⟩ := List.mem_map.mp hmem
    exact ⟨s, hs⟩
  obtain ⟨_, own, ownCompound, _, hcompound, rfl, _⟩ :=
    compile_eq_ok_iff.mp haccepted
  rcases List.mem_append.mp hrule with hbuiltin | hown
  · unfold builtinPart at hbuiltin
    split at hbuiltin
    · have hmem : rule ∈ Builtin.rules.compoundRules :=
        (List.mem_filter.mp hbuiltin).1
      obtain rfl : rule = Builtin.remoteErrorLog := List.mem_singleton.mp hmem
      exact hof _ _ _ hvalue
    · contradiction
  · obtain ⟨spec, _, hcompile⟩ :=
      exists_of_mem_forall₂ (mapM_eq_ok_iff.mp hcompound) hown
    obtain ⟨_, _, _, rfl⟩ := CompoundRuleSpec.compile_eq_ok_iff.mp hcompile
    exact hof _ _ _ hvalue

/-- Under an accepted contract, a rule on two elements that names affirmative
values is reported on some complete nodes just if one of the values fits into
quotes and is not granted by the element that has it.  A grant by another
attribute of that element, or by one whose name only begins alike, does not
stand in the way. -/
theorem compound_rule_can_fire_iff {contract : Contract} {rules : RuleSet}
    (haccepted : contract.compile = .ok rules) {rule : CompoundRule}
    (hrule : rule ∈ rules.compoundRules) (file : String) :
    rule.anchor.affirmative ≠ [] →
      (rule.CanFire rules file ↔
        ∃ value ∈ rule.anchor.affirmative, IsQuotable value ∧
        ¬ rule.GrantsItself value) := by
  intro _
  have hnodup := Contract.ids_nodup_of_compile haccepted
  constructor
  · exact CompoundRule.exists_value_of_canFire hnodup hrule
  · rintro ⟨value, hvalue, hquotable, hother⟩
    obtain ⟨s, rfl⟩ :=
      Contract.exists_text_of_affirmative haccepted hrule hvalue
    obtain ⟨node, hcomplete, hanchor, hcountermand⟩ :=
      CompoundRule.exists_anchor hvalue hquotable hother
    refine ⟨[node], by simpa using hcomplete,
      (CompoundRule.reported_iff hnodup hrule).mpr ?_⟩
    simp [hanchor, CompoundRule.countermands, hcountermand]

namespace FiringRulesWitness

/-- A countermand whose name is the beginning of the anchor's, and whose value
is an affirmative one. -/
def contract : Contract where
  builtinRules := some false
  compoundRules :=
    [{ id := "AvoidRemoteTrace"
       anchor := { tag := .trace, attributeName := "enabled",
                   values := [.text " 'True'"] }
       countermand := { tag := .trace, attributeName := "Enable",
                        value := .text "'true'" } }]

def rules : RuleSet := contract.compile.toOption.getD {}

theorem compile_contract : contract.compile = .ok rules := by decide +kernel

def remoteTrace : CompoundRule where
  id := "AvoidRemoteTrace"
  anchor := .of .trace "enabled" ["'true'"]
  countermand := .of .trace "Enable" "'true'"

theorem shadowed_rule_can_fire :
    contract.compile = .ok rules ∧ remoteTrace ∈ rules.compoundRules ∧
      remoteTrace.anchor.affirmative ≠ [] ∧
      remoteTrace.CanFire rules "web.config" := by
  have hrule : remoteTrace ∈ rules.compoundRules := by decide +kernel
  have hvalues : remoteTrace.anchor.affirmative = ["'true'"] := by
    decide +kernel
  have hsome : remoteTrace.anchor.affirmative ≠ [] := by simp [hvalues]
  refine ⟨compile_contract, hrule, hsome,
    (compound_rule_can_fire_iff compile_contract hrule "web.config" hsome).mpr
      ⟨"'true'", by simp [hvalues], ⟨'"', Or.inl rfl, by decide⟩,
        fun hgrants => ?_⟩⟩
  have hnames : lowerChars "Enable".toList ≠ lowerChars "enabled".toList := by
    decide +kernel
  exact hnames hgrants.name

/-- One rule takes for its exception the very value it looks for, and the other
looks for a value that no quotes can hold. -/
def idle : Contract where
  builtinRules := some false
  compoundRules :=
    [{ id := "AvoidTracing"
       anchor := { tag := .trace, attributeName := "enabled",
                   values := [.text "true"] }
       countermand := { tag := .trace, attributeName := " Enabled ",
                        value := .text "True" } },
     { id := "AvoidQuotes"
       anchor := { tag := .trace, attributeName := "enabled",
                   values := [.text "\"'"] }
       countermand := { tag := .trace, attributeName := "localOnly",
                        value := .text "true" } }]

def idleRules : RuleSet := idle.compile.toOption.getD {}

def selfGranted : CompoundRule where
  id := "AvoidTracing"
  anchor := ⟨.trace, "enabled", ["true"]⟩
  countermand := ⟨.trace, "Enabled", "true"⟩

def unquotable : CompoundRule where
  id := "AvoidQuotes"
  anchor := ⟨.trace, "enabled", ["\"'"]⟩
  countermand := ⟨.trace, "localOnly", "true"⟩

/-- Both rules are accepted, and no complete nodes make a walk report them. -/
theorem accepted_rules_never_fire :
    idle.compile = .ok idleRules ∧ idleRules.compoundRules =
        [selfGranted, unquotable] ∧
      ∀ rule ∈ idleRules.compoundRules,
        rule.anchor.affirmative ≠ [] ∧
          ¬ rule.CanFire idleRules "web.config" := by
  have hcompile : idle.compile = .ok idleRules := by decide +kernel
  have hrules : idleRules.compoundRules = [selfGranted, unquotable] := by
    decide +kernel
  have hnodup := Contract.ids_nodup_of_compile hcompile
  refine ⟨hcompile, hrules, fun rule hrule => ?_⟩
  have hneeds (hfires : rule.CanFire idleRules "web.config") :=
    CompoundRule.exists_value_of_canFire hnodup hrule hfires
  rw [hrules, List.mem_cons, List.mem_singleton] at hrule
  rcases hrule with rfl | rfl
  · refine ⟨by decide, fun hfires => ?_⟩
    obtain ⟨value, hvalue, _, hother⟩ := hneeds hfires
    have hnames : lowerChars "Enabled".toList =
        lowerChars "enabled".toList := by decide +kernel
    exact hother ⟨rfl, hnames, (List.mem_singleton.mp hvalue).symm⟩
  · refine ⟨by decide, fun hfires => ?_⟩
    obtain ⟨value, hvalue, ⟨mark, hmark, hinside⟩, _⟩ := hneeds hfires
    rw [List.mem_singleton.mp hvalue] at hinside
    rcases hmark with rfl | rfl
    · exact hinside (by decide)
    · exact hinside (by decide)

end FiringRulesWitness

end WebConfigAudit
