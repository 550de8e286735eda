import WebConfigAudit.Proofs.ElementStarts
import WebConfigAudit.Proofs.Fallible
import WebConfigAudit.Source.Configuration
/-!
The nodes of a configuration.  A reader of documents and the scanner of start
tags both look at the text of a tag, and they agree: the scanner takes apart
every tag that the reader accepts.
-/

namespace WebConfigAudit

open Text (Cursor Position)

theorem Tag.eq_of_sameLetters {s t : Tag}
    (hsame : Text.sameLetters s.elementName t.elementName = true) : s = t := by
  have hall : ∀ s ∈ Tag.all, ∀ t ∈ Tag.all,
      Text.sameLetters s.elementName t.elementName = true → s = t := by
    decide
  exact hall s s.mem_all t t.mem_all hsame

/-- The kind of an element is told by its name; no two kinds have the same
name. -/
theorem Tag.ofElementName?_eq_some_iff {name : String} {tag : Tag} :
    Tag.ofElementName? name = some tag ↔
      Text.sameLetters tag.elementName name = true := by
  have hname_of_found {found : Tag}
        (hfound : Tag.ofElementName? name = some found) :
      Text.sameLetters found.elementName name = true :=
    List.find?_some
      (p := fun tag : Tag => Text.sameLetters tag.elementName name) hfound
  constructor
  · exact hname_of_found
  · intro hname
    cases hfound : Tag.ofElementName? name with
    | none =>
        have hother := List.find?_eq_none.mp hfound tag tag.mem_all
        contradiction
    | some found =>
        have hfoundName := hname_of_found hfound
        rw [Text.sameLetters_iff] at hname hfoundName
        rw [Tag.eq_of_sameLetters
          (Text.sameLetters_iff.mpr (hfoundName.trans hname.symm))]

/-- Whether the local name of an element is that of a wanted kind, in any
case. -/
def Xml.Element.isWanted (wanted : List Tag) (element : Xml.Element) : Bool :=
  wanted.any fun tag =>
    Text.sameLetters tag.elementName (String.ofList element.name)

/-- The node of a single token. -/
def RawToken.toNode (token : RawToken) (kind : NodeKind) : Node :=
  { kind, text := String.ofList token.text, span := token.span }

/-- A node that states an attribute: the tokens of its name and of its quoted
value. -/
structure RawAttribute.IsStatedBy (a : RawAttribute) (node : Node) : Prop where
  kind : node.kind = .statement
  children : node.children =
    [a.name.toNode .attributeName, a.value.toNode .attributeValue]

/-- A node that shows a written tag at a place: the token of its name and then,
in order, one statement for each of its attributes. -/
structure WrittenTag.IsShownBy (tag : WrittenTag) (pos : Position)
    (node : Node) : Prop where
  text : node.text = String.ofList tag.name
  children : ∃ statements,
    node.children = (tag.tokensAt pos).name.toNode .tagName :: statements ∧
      List.Forall₂ RawAttribute.IsStatedBy (tag.tokensAt pos).attributes
        statements

/-- The node of an element of a wanted kind: it shows the start tag as it is
written. -/
structure Xml.Element.IsShownBy (wanted : List Tag) (element : Xml.Element)
    (node : Node) : Prop where
  kind : ∃ tag ∈ wanted,
    Text.sameLetters tag.elementName (String.ofList element.name) = true ∧
    node.kind = .element tag
  span : node.span = ⟨element.start.pos, element.stop⟩
  written : ∃ (tag : WrittenTag) (inside : List Char),
    element.start.rest = tag.chars ++ inside ∧
      element.name = Xml.localPart tag.name ∧
      tag.IsShownBy element.start.pos node

theorem RawAttribute.isStatedBy_toNode (a : RawAttribute) :
    a.IsStatedBy a.toNode :=
  ⟨rfl, rfl⟩

theorem WrittenTag.isShownBy_nodeOfTag (written : WrittenTag) (pos : Position)
    (tag : Tag) (span : Span) :
    written.IsShownBy pos (nodeOfTag tag span (written.tokensAt pos)) where
  text := rfl
  children := by
    refine ⟨_, rfl, ?_⟩
    rw [List.forall₂_map_right_iff, List.forall₂_same]
    exact fun a _ => a.isStatedBy_toNode

section Elements

variable {wanted : List Tag} {source : Cursor} {element : Xml.Element}

theorem nodeOfElement_of_isWanted
    (hstarts : Xml.StartsIn source element.name element.start)
    (hwanted : element.isWanted wanted = true) :
    ∃ node, nodeOfElement wanted element = .ok (some node) ∧
      element.IsShownBy wanted node := by
  obtain ⟨tag, hmem, hname⟩ := List.any_eq_true.mp hwanted
  obtain ⟨_, written, inside, hrest, hlocal⟩ := hstarts
  -- what the reader accepted is a written tag, and the scanner takes any of
  -- those apart
  have hscan : scanStartTag element.start =
      .ok (written.tokensAt element.start.pos) := by
    have hcursor :
        element.start = ⟨written.chars ++ inside, element.start.pos⟩ := by
      rw [← hrest]
    rw [hcursor]
    exact scanStartTag_append written inside _
  refine ⟨nodeOfTag tag ⟨element.start.pos, element.stop⟩
      (written.tokensAt element.start.pos),
    ?_, ⟨tag, hmem, hname, rfl⟩, rfl, written, inside, hrest, hlocal,
    written.isShownBy_nodeOfTag _ tag _⟩
  rw [nodeOfElement, Tag.ofElementName?_eq_some_iff.mpr hname]
  simp [hmem, hscan]

theorem nodeOfElement_of_not_isWanted
    (hother : element.isWanted wanted = false) :
    nodeOfElement wanted element = .ok none := by
  unfold nodeOfElement
  split
  · rfl
  · next tag htag =>
      have hname := Tag.ofElementName?_eq_some_iff.mp htag
      rw [if_neg]
      intro hmem
      rw [Xml.Element.isWanted, List.any_eq_false] at hother
      exact hother tag hmem hname

/-- The elements of wanted kinds have their nodes, in the same order, and the
others have none. -/
theorem mapM_nodeOfElement (wanted : List Tag) {elements : List Xml.Element}
    (hstarts : ∀ element ∈ elements,
      Xml.StartsIn source element.name element.start) :
    ∃ found, elements.mapM (nodeOfElement wanted) = .ok found ∧
      List.Forall₂ (Xml.Element.IsShownBy wanted)
        (elements.filter (Xml.Element.isWanted wanted))
        (found.filterMap id) := by
  simp only [mapM_eq_ok_iff]
  induction elements with
  | nil => exact ⟨[], List.Forall₂.nil, List.Forall₂.nil⟩
  | cons element others ih =>
      rw [List.forall_mem_cons] at hstarts
      obtain ⟨found, hfound, hshown⟩ := ih hstarts.2
      cases hwanted : element.isWanted wanted with
      | true =>
          obtain ⟨node, hnode, hshows⟩ :=
            nodeOfElement_of_isWanted hstarts.1 hwanted
          refine ⟨some node :: found, List.Forall₂.cons hnode hfound, ?_⟩
          rw [List.filter_cons_of_pos hwanted]
          exact List.Forall₂.cons hshows hshown
      | false =>
          refine ⟨none :: found,
            List.Forall₂.cons (nodeOfElement_of_not_isWanted hwanted) hfound,
            ?_⟩
          rw [List.filter_cons_of_neg (by simp [hwanted])]
          exact hshown

end Elements

/-- Every node shows a tag that the text writes at the place where the node
starts. -/
theorem exists_writtenTag_of_mem_nodes {wanted : List Tag} {source : String}
    {nodes : List Node} {node : Node}
    (hread : readConfiguration wanted source = .ok nodes)
    (hnode : node ∈ nodes) :
    ∃ (tag : WrittenTag) (front rest : List Char),
      source.toList = front ++ tag.chars ++ rest ∧
      node.span.start = Position.start.advance front ∧
      tag.IsShownBy (Position.start.advance front) node := by
  unfold readConfiguration at hread
  cases helements : Xml.elements? (Cursor.ofText source) with
  | none =>
      rw [helements] at hread
      contradiction
  | some elements =>
      have hstarts := Xml.startsIn_of_elements? helements
      obtain ⟨found, hfound, hshown⟩ := mapM_nodeOfElement wanted hstarts
      simp only [helements, hfound] at hread
      cases hread
      obtain ⟨element, helement, hshows⟩ := exists_of_mem_forall₂ hshown hnode
      obtain ⟨⟨before, after, hsource, hpos⟩, _⟩ :=
        hstarts element (List.mem_of_mem_filter helement)
      have htext : source.toList = before ++ element.start.rest ++ after :=
        hsource
      have hplace : element.start.pos = Position.start.advance before := hpos
      obtain ⟨tag, inside, hrest, _, htag⟩ := hshows.written
      refine ⟨tag, before, inside ++ after, ?_, ?_, ?_⟩
      · rw [htext, hrest, List.append_assoc, List.append_assoc,
          List.append_assoc]
      · rw [hshows.span, hplace]
      · rwa [← hplace]

/-- Reading a configuration with some reader of documents. -/
def readConfigurationBy (elements? : Cursor → Option (List Xml.Element))
    (wanted : List Tag) (source : String) : Except SourceError (List Node) :=
  match elements? (Cursor.ofText source) with
  | none => .error .malformed
  | some elements => do
      let nodes ← elements.mapM (nodeOfElement wanted)
      return nodes.filterMap id

/-- All that is asked of a reader of documents: what it takes for an element
starts in the text of the document, at the opening bracket of a start tag. -/
def FindsStartTags (elements? : Cursor → Option (List Xml.Element)) : Prop :=
  ∀ source elements, elements? (Cursor.ofText source) = some elements →
    ∀ element ∈ elements,
      Xml.StartsIn (Cursor.ofText source) element.name element.start

theorem findsStartTags_elements? : FindsStartTags Xml.elements? :=
  fun _ _ helements => Xml.startsIn_of_elements? helements

/-- With any reader that finds start tags, a document has one node for each
element of a wanted kind, in the order of the reader's elements, and no start
tag is refused.  The reader of this library is one of them. -/
theorem readConfiguration_shows_elements
    {elements? : Cursor → Option (List Xml.Element)}
    (hreader : FindsStartTags elements?) :
    (∀ wanted source elements, elements? (Cursor.ofText source) =
        some elements →
      ∃ nodes, readConfigurationBy elements? wanted source = .ok nodes ∧
        List.Forall₂ (Xml.Element.IsShownBy wanted)
          (elements.filter (Xml.Element.isWanted wanted)) nodes) ∧
    (∀ wanted source e, readConfigurationBy elements? wanted source ≠
      .error (.token e)) ∧
    FindsStartTags Xml.elements? ∧
      readConfiguration = readConfigurationBy Xml.elements? := by
  have hread : ∀ wanted source elements, elements? (Cursor.ofText source) =
        some elements →
      ∃ nodes, readConfigurationBy elements? wanted source = .ok nodes ∧
        List.Forall₂ (Xml.Element.IsShownBy wanted)
          (elements.filter (Xml.Element.isWanted wanted)) nodes := by
    intro wanted source elements helements
    obtain ⟨found, hfound, hshown⟩ :=
      mapM_nodeOfElement wanted (hreader source elements helements)
    refine ⟨found.filterMap id, ?_, hshown⟩
    simp only [readConfigurationBy, helements, hfound]
    rfl
  refine ⟨hread, ?_, findsStartTags_elements?, rfl⟩
  intro wanted source e
  cases helements : elements? (Cursor.ofText source) with
  | none => simp [readConfigurationBy, helements]
  | some elements =>
      obtain ⟨nodes, hnodes, _⟩ := hread wanted source elements helements
      simp [hnodes]

namespace ConfigurationNodesWitness

/-- A name with a prefix, both quotes, delimiters inside values, blanks around
an equals sign, and an element that an entity stands for. -/
def text : String :=
  "<!DOCTYPE web [<!ENTITY login '<Forms name=\"a>b\"/>'>]>\n" ++
    "<web xmlns:p='u'><p:TRACE xmlns='v' enabled\n = \"it's\" p:path='/>'/>&login;<web/></web>"

/-- The elements of the text. -/
def elements : List Xml.Element :=
  (Xml.elements? (Cursor.ofText text)).getD []

theorem elements?_text :
    Xml.elements? (Cursor.ofText text) = some elements := by
  have hread : (Xml.elements? (Cursor.ofText text)).isSome = true := by
    decide +kernel
  unfold elements
  cases hresult : Xml.elements? (Cursor.ofText text) with
  | none =>
      rw [hresult] at hread
      contradiction
  | some found => rfl

theorem text_shows_both_elements :
    FindsStartTags Xml.elements? ∧
      ∃ nodes, readConfiguration [.trace, .forms] text = .ok nodes ∧
        List.Forall₂ (Xml.Element.IsShownBy [.trace, .forms])
          (elements.filter (Xml.Element.isWanted [.trace, .forms])) nodes := by
  obtain ⟨hread, _, hfinds, hsame⟩ :=
    readConfiguration_shows_elements findsStartTags_elements?
  rw [hsame]
  exact ⟨hfinds, hread [.trace, .forms] text elements elements?_text⟩

example :
    ((readConfiguration [.trace, .forms] text).toOption.getD []).map
        (fun node => (node.text, node.children.map Node.text)) =
      [("p:TRACE", ["p:TRACE", "xmlns='v'", "enabled=\"it's\"", "p:path='/>'"]),
       ("Forms", ["Forms", "name=\"a>b\""])] := by
  decide +kernel

end ConfigurationNodesWitness

end WebConfigAudit
