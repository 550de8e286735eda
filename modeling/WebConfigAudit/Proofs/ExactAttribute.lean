import WebConfigAudit.Proofs.CompleteNodes
/-!
Which attribute a look-up by name comes to.  It is the first one in the tag
whose name begins with the name that is looked for.  So an attribute of exactly
that name is found unless a longer name that begins with it stands in front of
every attribute of that name.
-/

namespace WebConfigAudit

open Text (Position lowerChars)

/-- Whether the attribute's name begins with the given one, without regard to
case. -/
def AttributeMatch.begins (a : AttributeMatch) (name : String) : Bool :=
  nameBegins (lowerChars name.toList) a.name

/-- Whether the attribute has the given name, without regard to case. -/
def AttributeMatch.isNamed (a : AttributeMatch) (name : String) : Bool :=
  lowerChars a.name.text.toList == lowerChars name.toList

/-- The texts of name and value. -/
def AttributeMatch.texts (a : AttributeMatch) : String × String :=
  (a.name.text, a.value.text)

/-- The texts of name and value as they are written. -/
def WrittenAttribute.texts (a : WrittenAttribute) : String × String :=
  (String.ofList a.name, String.ofList a.quoted)

/-- The attribute that a child states, if it is a statement and lacks
nothing. -/
def Node.stated? (child : Node) : Option AttributeMatch :=
  if child.kind = .statement then child.tokens.toOption else none

/-- The attributes of an element, in the order of its tag. -/
def Node.attributes (node : Node) : List AttributeMatch :=
  node.children.filterMap Node.stated?

/-- A name that only begins with the given one stands in front of every
attribute of that name. -/
def Node.HidesName (node : Node) (name : String) : Prop :=
  ∃ before longer after, node.attributes = before ++ longer :: after ∧
    longer.begins name = true ∧ ∀ a ∈ before ++ [longer], a.isNamed name = false

theorem AttributeMatch.begins_of_isNamed {a : AttributeMatch} {name : String}
    (hnamed : a.isNamed name = true) : a.begins name = true := by
  rw [isNamed, beq_iff_eq] at hnamed
  exact List.isPrefixOf_iff_prefix.mpr
    ⟨[], (List.append_nil _).trans hnamed.symm⟩

section Statements

variable {child : Node}

theorem Node.stated?_of_kind_ne (hkind : child.kind ≠ .statement) :
    child.stated? = none :=
  if_neg hkind

theorem Node.IsCompleteStatement.exists_stated?
    (hcomplete : child.IsCompleteStatement) :
    ∃ name value, child.children = [name, value] ∧
      child.stated? = some ⟨child, name, value⟩ := by
  obtain ⟨name, value, hchildren, _⟩ := hcomplete.tokens
  refine ⟨name, value, hchildren, ?_⟩
  rw [Node.stated?, if_pos hcomplete.kind, Node.tokens, hchildren]
  rfl

theorem findStatement_eq_find?_stated (name : String) {children : List Node}
    (hcomplete : ∀ child ∈ children, child.kind ≠ .statement ∨
      child.IsCompleteStatement) :
    findStatement (lowerChars name.toList) children =
      .ok ((children.filterMap Node.stated?).find? fun a => a.begins name) := by
  induction children with
  | nil => rfl
  | cons child rest ih =>
      rw [List.forall_mem_cons] at hcomplete
      obtain ⟨hchild, hrest⟩ := hcomplete
      rcases hchild with hkind | hstates
      · rw [findStatement, if_neg hkind,
          List.filterMap_cons_none (Node.stated?_of_kind_ne hkind), ih hrest]
      · obtain ⟨token, value, hchildren, hstated⟩ := hstates.exists_stated?
        rw [findStatement, if_pos hstates.kind, hchildren,
          List.filterMap_cons_some hstated]
        by_cases hbegins : nameBegins (lowerChars name.toList) token = true
        · rw [List.find?_cons_of_pos (by exact hbegins)]
          exact if_pos hbegins
        · rw [List.find?_cons_of_neg (by exact hbegins), ← ih hrest]
          exact if_neg hbegins

/-- On an element that lacks nothing, a look-up comes to the first attribute
that begins so. -/
theorem Node.IsComplete.findAttribute?_eq {node : Node}
    (hcomplete : node.IsComplete) (name : String) :
    node.findAttribute? name =
      .ok (node.attributes.find? fun a => a.begins name) := by
  obtain ⟨token, statements, hchildren, htoken, hstatements⟩ :=
    hcomplete.children
  refine findStatement_eq_find?_stated name ?_
  rw [hchildren, List.forall_mem_cons]
  refine ⟨Or.inl ?_, fun child hchild => Or.inr (hstatements child hchild)⟩
  rw [htoken]
  exact NodeKind.noConfusion

end Statements

section Hiding

variable {node : Node} {name : String} {found : AttributeMatch}

/-- The attribute that is found has the name just if no longer one hides the
name. -/
theorem Node.isNamed_iff_not_hidesName
    (hfound : (node.attributes.find? fun a => a.begins name) = some found) :
    found.isNamed name = true ↔ ¬ node.HidesName name := by
  constructor
  · rintro hnamed ⟨before, longer, after, hsplit, hbegins, hother⟩
    -- the longer name is met before the look-up can go on to what stands behind
    -- it
    have hsome : ((before ++ [longer]).find? fun a => a.begins name).isSome =
        true := by
      rw [List.find?_isSome]
      exact ⟨longer, by simp, hbegins⟩
    obtain ⟨first, hfirst⟩ := Option.isSome_iff_exists.mp hsome
    have hsame : (node.attributes.find? fun a => a.begins name) =
        some first := by
      rw [hsplit, List.append_cons, List.find?_append, hfirst, Option.some_or]
    obtain rfl : first = found := Option.some.inj (hsame.symm.trans hfound)
    rw [hother first (List.mem_of_find?_eq_some hfirst)] at hnamed
    contradiction
  · intro hshown
    by_contra hother
    rw [Bool.not_eq_true] at hother
    obtain ⟨hbegins, before, after, hsplit, hbefore⟩ :=
      List.find?_eq_some_iff_append.mp hfound
    refine hshown ⟨before, found, after, hsplit, hbegins, ?_⟩
    rw [List.forall_mem_append]
    refine ⟨fun a ha => ?_, by simpa using hother⟩
    rw [Bool.eq_false_iff]
    intro hnamed
    have hnot := hbefore a ha
    rw [AttributeMatch.begins_of_isNamed hnamed] at hnot
    contradiction

theorem Node.exists_find?_of_carries
    (hcarries : ∃ a ∈ node.attributes, a.isNamed name = true) :
    ∃ found ∈ node.attributes, (node.attributes.find? fun a => a.begins name) =
      some found := by
  obtain ⟨a, ha, hnamed⟩ := hcarries
  have hsome : (node.attributes.find? fun a => a.begins name).isSome =
      true := by
    rw [List.find?_isSome]
    exact ⟨a, ha, AttributeMatch.begins_of_isNamed hnamed⟩
  obtain ⟨found, hfound⟩ := Option.isSome_iff_exists.mp hsome
  exact ⟨found, List.mem_of_find?_eq_some hfound, hfound⟩

end Hiding

section Written

variable {wanted : List Tag} {source : String} {nodes : List Node} {node : Node}
  {pos : Position}

theorem RawAttribute.IsStatedBy.stated? {a : RawAttribute} {child : Node}
    (hstates : a.IsStatedBy child) :
    child.stated? =
      some ⟨child, a.name.toNode .attributeName,
        a.value.toNode .attributeValue⟩ := by
  rw [Node.stated?, if_pos hstates.kind, Node.tokens, hstates.children]
  rfl

theorem texts_of_forall₂_isStatedBy {attributes : List WrittenAttribute}
    {statements : List Node}
    (hstated : List.Forall₂ RawAttribute.IsStatedBy
      (WrittenAttribute.allTokensAt pos attributes) statements) :
    (statements.filterMap Node.stated?).map AttributeMatch.texts =
      attributes.map WrittenAttribute.texts := by
  induction attributes generalizing pos statements with
  | nil =>
      rw [List.forall₂_nil_left_iff.mp hstated]
      rfl
  | cons a rest ih =>
      obtain ⟨statement, others, hstates, hothers, rfl⟩ :=
        List.forall₂_cons_left_iff.mp hstated
      rw [List.filterMap_cons_some hstates.stated?, List.map_cons,
        List.map_cons, ih hothers]
      rfl

/-- A node that shows a tag has the attributes that are written in the tag. -/
theorem WrittenTag.IsShownBy.texts_attributes {tag : WrittenTag}
    (hshown : tag.IsShownBy pos node) :
    node.attributes.map AttributeMatch.texts =
      tag.attributes.map WrittenAttribute.texts := by
  obtain ⟨statements, hchildren, hstated⟩ := hshown.children
  have hname : ((tag.tokensAt pos).name.toNode .tagName).stated? = none :=
    Node.stated?_of_kind_ne NodeKind.noConfusion
  rw [Node.attributes, hchildren, List.filterMap_cons_none hname]
  exact texts_of_forall₂_isStatedBy hstated

end Written

/-- The attributes of an element that is read from a text are those that its tag
writes, in their order, and a look-up never fails: it comes to the first one
whose name begins with the name that is looked for.  If there is an attribute of
that name, the one that is found has the name just if no longer name that begins
with it stands in front of all attributes of that name.  Whichever is found, it
is the one that a clause on the name judges. -/
theorem exact_attribute_wins_unless_hidden {wanted : List Tag} {source : String}
    {nodes : List Node} (hread : readConfiguration wanted source = .ok nodes)
    {node : Node} (hnode : node ∈ nodes) (name : String) :
    (∃ (tag : WrittenTag) (front rest : List Char),
      source.toList = front ++ tag.chars ++ rest ∧
      node.span.start = Position.start.advance front ∧
      node.attributes.map AttributeMatch.texts =
        tag.attributes.map WrittenAttribute.texts) ∧
    node.findAttribute? name =
      .ok (node.attributes.find? fun a => a.begins name) ∧
    ((∃ a ∈ node.attributes, a.isNamed name = true) →
      ∃ found ∈ node.attributes, node.findAttribute? name = .ok (some found) ∧
        (found.isNamed name = true ↔ ¬ node.HidesName name) ∧
        ∀ tag check, node.kind = .element tag →
          (Clause.of tag name check).evaluate node =
            .ok (check.evaluate (some found))) := by
  have hcomplete : node.IsComplete :=
    isComplete_of_readConfigurationBy
      (show readConfigurationBy Xml.elements? wanted source = .ok nodes
        from hread) node hnode
  have hlookup := hcomplete.findAttribute?_eq name
  refine ⟨?_, hlookup, fun hcarries => ?_⟩
  · obtain ⟨tag, front, rest, hsource, hstart, hshown⟩ :=
      exists_writtenTag_of_mem_nodes hread hnode
    exact ⟨tag, front, rest, hsource, hstart, hshown.texts_attributes⟩
  · obtain ⟨found, hmem, hfound⟩ := Node.exists_find?_of_carries hcarries
    rw [hfound] at hlookup
    refine ⟨found, hmem, hlookup, Node.isNamed_iff_not_hidesName hfound,
      fun tag check hkind => ?_⟩
    rw [Clause.evaluate, Clause.of, if_pos hkind,
      Node.findAttribute?_lowercase, hlookup]

namespace ExactAttributeWitness

/-- The timeout of batches stands in front of their switch in one tag and behind
it in the other. -/
def text : String :=
  "<web><compilation batchTimeout='900' batch='false'/>" ++
    "<compilation Batch='false' batchTimeout='900'/></web>"

def nodes : List Node :=
  (readConfiguration [.compilation] text).toOption.getD []

theorem readConfiguration_text :
    readConfiguration [.compilation] text = .ok nodes :=
  eq_ok_of_isOk [] (by decide +kernel)

/-- What a look-up of the switch comes to, and whether it is the switch. -/
def switchOf (node : Node) : Option Bool :=
  (node.findAttribute? "batch").toOption.bind fun found? =>
    found?.map (·.isNamed "batch")

theorem nodes_carry_switch :
    ∃ hidden shown, nodes = [hidden, shown] ∧
      hidden.kind = .element .compilation ∧
      (hidden.attributes.any (·.isNamed "batch")) = true ∧
      (shown.attributes.any (·.isNamed "batch")) = true ∧
      switchOf hidden = some false ∧ switchOf shown = some true := by
  have htold : nodes.map (fun node =>
        (node.kind, node.attributes.any (·.isNamed "batch"), switchOf node)) =
      [(.element .compilation, true, some false),
       (.element .compilation, true, some true)] := by
    decide +kernel
  obtain ⟨hidden, others, hnodes, hfirst, hothers⟩ :=
    List.map_eq_cons_iff.mp htold
  obtain ⟨shown, more, rfl, hsecond, hmore⟩ := List.map_eq_cons_iff.mp hothers
  obtain rfl := List.map_eq_nil_iff.mp hmore
  simp only [Prod.mk.injEq] at hfirst hsecond
  exact ⟨hidden, shown, hnodes, hfirst.1, hfirst.2.1, hsecond.2.1, hfirst.2.2,
    hsecond.2.2⟩

theorem switch_is_judged_by_place :
    readConfiguration [.compilation] text = .ok nodes ∧
    ∃ hidden shown, nodes = [hidden, shown] ∧
      hidden.kind = .element .compilation ∧
      (∃ a ∈ hidden.attributes, a.isNamed "batch" = true) ∧
      (∃ a ∈ shown.attributes, a.isNamed "batch" = true) ∧
      (∃ found, hidden.findAttribute? "batch" = .ok (some found) ∧
        (found.isNamed "batch" = true ↔ ¬ hidden.HidesName "batch") ∧
        (Clause.of .compilation "batch" .presence).evaluate hidden =
          .ok (Check.presence.evaluate (some found))) ∧
      ∃ found, shown.findAttribute? "batch" = .ok (some found) ∧
        (found.isNamed "batch" = true ↔ ¬ shown.HidesName "batch") := by
  obtain ⟨hidden, shown, hnodes, hkind, hhidden, hshown, _, _⟩ :=
    nodes_carry_switch
  rw [List.any_eq_true] at hhidden hshown
  have hread := readConfiguration_text
  obtain ⟨_, _, hfirst⟩ := exact_attribute_wins_unless_hidden hread
    (show hidden ∈ nodes by simp [hnodes]) "batch"
  obtain ⟨_, _, hsecond⟩ := exact_attribute_wins_unless_hidden hread
    (show shown ∈ nodes by simp [hnodes]) "batch"
  obtain ⟨found, _, hfound, hiff, hjudged⟩ := hfirst hhidden
  obtain ⟨other, _, hother, hiff', _⟩ := hsecond hshown
  exact ⟨hread, hidden, shown, hnodes, hkind, hhidden, hshown,
    ⟨found, hfound, hiff, hjudged .compilation .presence hkind⟩, other,
    hother, hiff'⟩

/-- The switch of the first element is not found. -/
theorem longer_name_is_found_first :
    ¬ ∀ (source : String) (nodes : List Node),
      readConfiguration [.compilation] source = .ok nodes →
      ∀ node ∈ nodes, ∀ name, (∃ a ∈ node.attributes, a.isNamed name = true) →
        ∃ found, node.findAttribute? name = .ok (some found) ∧
        found.isNamed name = true := by
  intro hwins
  obtain ⟨hidden, shown, hnodes, _, hcarries, _, hswitch, _⟩ :=
    nodes_carry_switch
  obtain ⟨found, hfound, hnamed⟩ :=
    hwins text nodes readConfiguration_text hidden
      (by simp [hnodes]) "batch" (List.any_eq_true.mp hcarries)
  rw [switchOf, hfound] at hswitch
  simp [Except.toOption, hnamed] at hswitch

example :
    nodes.map (fun node =>
      (node.attributes.map AttributeMatch.texts, switchOf node)) =
      [([("batchTimeout", "'900'"), ("batch", "'false'")], some false),
       ([("Batch", "'false'"), ("batchTimeout", "'900'")], some true)] := by
  decide +kernel

end ExactAttributeWitness

end WebConfigAudit
