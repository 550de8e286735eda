import WebConfigAudit.Proofs.CompleteNodes
import WebConfigAudit.Rule.Builtin
/-!
Where in a document the elements stand that rules look at.  The documentation
speaks of `forms` in `authentication` and of `allow` in `authorization`; the
nodes are told by the names of the elements alone, so they come from those
places only where the document has such elements nowhere else.
-/

namespace WebConfigAudit

open Text (Cursor Position)

namespace Xml

/-- An element with the local names of the elements around it, the innermost
first. -/
structure Placed where
  element : Element
  around : List (List Char)

/-- The elements among the events; `around` are the elements that are open
before them. -/
def placedOf (around : List (List Char)) : List Event → List Placed
  | [] => []
  | .opened name start :: events =>
      ((stopOf? 0 events).toList.map fun stop =>
        ⟨⟨name, start, stop⟩, around⟩) ++
        placedOf (name :: around) events
  | .closed _ :: events => placedOf around.tail events

/-- The elements of a text with those around them, if it is a document. -/
def placed? (text : Cursor) : Option (List Placed) := do
  let document ← readDocument text
  return placedOf [] (← document.events?)

/-- The elements that are open after the events. -/
def openAfter (around : List (List Char)) : List Event → List (List Char)
  | [] => around
  | .opened name _ :: events => openAfter (name :: around) events
  | .closed _ :: events => openAfter around.tail events

section Events

variable {around : List (List Char)} {events : List Event}

theorem map_element_placedOf (around : List (List Char)) (events : List Event) :
    (placedOf around events).map Placed.element = elementsOf events := by
  induction events generalizing around with
  | nil => rfl
  | cons event events ih =>
      cases event with
      | opened name start =>
          rw [placedOf, elementsOf, List.map_append, ih, List.map_map]
          rfl
      | closed stop => exact ih around.tail

theorem openAfter_append (around : List (List Char))
    (events others : List Event) :
    openAfter around (events ++ others) =
      openAfter (openAfter around events) others := by
  induction events generalizing around with
  | nil => rfl
  | cons event events ih =>
      cases event with
      | opened name start => exact ih (name :: around)
      | closed stop => exact ih around.tail

/-- An element that does not end stays open, with all those around it. -/
theorem exists_openAfter_of_stopOf? (inner : List (List Char))
    (name : List Char) (hnone : stopOf? inner.length events = none) :
    ∃ more, openAfter (inner ++ name :: around) events =
      more ++ name :: around := by
  induction events generalizing inner with
  | nil => exact ⟨inner, rfl⟩
  | cons event events ih =>
      cases event with
      | opened next start => exact ih (next :: inner) hnone
      | closed stop =>
          cases inner with
          | nil => contradiction
          | cons next inner => exact ih inner hnone

theorem exists_stopOf? {name : List Char}
    (hclosed : openAfter (name :: around) events = []) :
    ∃ stop, stopOf? 0 events = some stop := by
  rw [← Option.isSome_iff_exists, Option.isSome_iff_ne_none]
  intro hnone
  obtain ⟨more, hmore⟩ := exists_openAfter_of_stopOf? [] name hnone
  exact absurd (hmore.symm.trans hclosed) (by simp)

/-- The innermost element around another is an element itself, with the others
around it. -/
theorem suffix_or_exists_parent (hclosed : openAfter around events = [])
    {p : Placed} (hp : p ∈ placedOf around events) {name : List Char}
    {outer : List (List Char)} (haround : p.around = name :: outer) :
    name :: outer <:+ around ∨
      ∃ q ∈ placedOf around events, q.element.name = name ∧
      q.around = outer := by
  induction events generalizing around with
  | nil => contradiction
  | cons event events ih =>
      cases event with
      | opened next start =>
          obtain ⟨stop, hstop⟩ := exists_stopOf? hclosed
          simp only [placedOf, hstop, Option.toList_some, List.map_singleton,
            List.singleton_append, List.mem_cons] at hp ⊢
          rcases hp with rfl | hp
          · rw [← haround]
            exact Or.inl List.suffix_rfl
          · rcases ih hclosed hp with hsuffix | ⟨q, hq, hname, houter⟩
            · rcases List.suffix_cons_iff.mp hsuffix with heq | hsuffix
              · obtain ⟨rfl, rfl⟩ := List.cons.inj heq
                exact Or.inr ⟨_, Or.inl rfl, rfl, rfl⟩
              · exact Or.inl hsuffix
            · exact Or.inr ⟨q, Or.inr hq, hname, houter⟩
      | closed stop =>
          exact (ih hclosed hp).imp_left fun hsuffix =>
            hsuffix.trans (List.tail_suffix around)

end Events

namespace Progress

/-- The events so far leave those elements open that the reader has open. -/
def IsTracked (p : Progress) : Prop :=
  openAfter [] p.events.reverse = p.opened.map fun element =>
    element.name.localName

theorem isTracked_initial : IsTracked {} := rfl

theorem isKept_isTracked (entities : List Entity) :
    IsKept entities (fun _ => True) IsTracked where
  same p q hevents hopened hp := by
    rw [IsTracked, hevents, hopened]
    exact hp
  start levels p tag q _ hp hstart := by
    rw [IsTracked] at hp
    rcases start_cases hstart with
      ⟨_, hevents, hopened⟩ | ⟨_, hopened, hevents⟩ | ⟨_,
        ⟨scope, hopened⟩, hevents⟩
    · rw [IsTracked, hevents, hopened, hp]
    · rw [IsTracked, hevents, hopened, List.reverse_cons, List.reverse_cons,
        openAfter_append, openAfter_append, hp]
      rfl
    · rw [IsTracked, hevents, hopened, List.reverse_cons, openAfter_append, hp]
      rfl
  finish p name stop q _ hp hfinish := by
    obtain ⟨element, outer, hinnermost, _, hevents, hopened⟩ :=
      finish_cases hfinish
    rw [IsTracked, hinnermost] at hp
    rw [IsTracked, hevents, hopened, List.reverse_cons, openAfter_append, hp]
    rfl
  inside _ _ _ _ _ _ := trivial

end Progress

/-- Every element of a document ends. -/
theorem openAfter_of_events? {document : Document} {events : List Event}
    (hevents : document.events? = some events) : openAfter [] events = [] := by
  unfold Document.events? at hevents
  obtain ⟨p, htake, hevents⟩ := Option.bind_eq_some_iff.mp hevents
  have hp : p.IsTracked :=
    (Progress.isKept_isTracked document.entities).of_takeAll
      (fun _ _ => trivial) Progress.isTracked_initial htake
  split at hevents
  · next hclosed =>
      cases hevents
      have hnone : p.opened = [] := by
        simpa using (Bool.and_eq_true_iff.mp hclosed).1
      rw [Progress.IsTracked, hnone] at hp
      exact hp
  · contradiction

section Documents

variable {text : Cursor} {placed : List Placed}

theorem exists_events_of_placed? (hplaced : placed? text = some placed) :
    ∃ events, openAfter [] events = [] ∧ placed = placedOf [] events ∧
      elements? text = some (elementsOf events) := by
  unfold placed? at hplaced
  simp only [Option.bind_eq_bind, Option.bind_eq_some_iff] at hplaced
  obtain ⟨document, hdocument, events, hevents, ⟨⟩⟩ := hplaced
  refine ⟨events, openAfter_of_events? hevents, rfl, ?_⟩
  simp [elements?, hdocument, hevents]

theorem exists_placed?_of_elements? {elements : List Element}
    (helements : elements? text = some elements) :
    ∃ placed, placed? text = some placed := by
  unfold elements? at helements
  simp only [Option.bind_eq_bind, Option.bind_eq_some_iff] at helements
  obtain ⟨document, hdocument, events, hevents, _⟩ := helements
  exact ⟨placedOf [] events, by simp [placed?, hdocument, hevents]⟩

/-- The elements are those that the reader finds. -/
theorem elements?_of_placed? (hplaced : placed? text = some placed) :
    elements? text = some (placed.map Placed.element) := by
  obtain ⟨events, _, rfl, helements⟩ := exists_events_of_placed? hplaced
  rw [helements, map_element_placedOf]

theorem exists_parent_of_placed? (hplaced : placed? text = some placed)
    {p : Placed} (hp : p ∈ placed) {name : List Char} {outer : List (List Char)}
    (haround : p.around = name :: outer) :
    ∃ q ∈ placed, q.element.name = name ∧ q.around = outer := by
  obtain ⟨events, hclosed, rfl, _⟩ := exists_events_of_placed? hplaced
  rcases suffix_or_exists_parent hclosed hp haround with hsuffix | hparent
  · exact absurd (List.suffix_nil.mp hsuffix) (List.cons_ne_nil _ _)
  · exact hparent

end Documents

end Xml

/-- The element that the documentation puts around those of a kind. -/
def Tag.documentedParent? : Tag → Option String
  | .forms => some "authentication"
  | .allow => some "authorization"
  | _ => none

/-- The innermost element around this one has a name, in any case. -/
def Xml.Placed.IsInside (placed : Xml.Placed) (parent : String) : Prop :=
  ∃ name ∈ placed.around.head?,
    Text.sameLetters parent (String.ofList name) = true

/-- The element stands in the place that is documented for a kind, if there is
one. -/
def Xml.Placed.StandsAs (placed : Xml.Placed) (tag : Tag) : Prop :=
  ∀ parent ∈ tag.documentedParent?, placed.IsInside parent

instance (placed : Xml.Placed) (parent : String) :
    Decidable (placed.IsInside parent) :=
  inferInstanceAs (Decidable (∃ name ∈ placed.around.head?, _))

instance (placed : Xml.Placed) (tag : Tag) : Decidable (placed.StandsAs tag) :=
  inferInstanceAs (Decidable (∀ parent ∈ tag.documentedParent?, _))

/-- The node of an element has the kind of the element's name. -/
theorem Xml.Element.IsShownBy.kind_eq_iff {wanted : List Tag}
    {element : Xml.Element} {node : Node}
    (hshown : element.IsShownBy wanted node) {tag : Tag} :
    node.kind = .element tag ↔
      tag ∈ Tag.ofElementName? (String.ofList element.name) := by
  obtain ⟨found, _, hname, hkind⟩ := hshown.kind
  rw [hkind, Option.mem_def, Tag.ofElementName?_eq_some_iff.mpr hname,
    NodeKind.element.injEq, Option.some.injEq]

/-- A rule is settled by a countermand that is read from a text. -/
theorem CompoundRule.verdict_eq_none_of_isCountermand (rule : CompoundRule)
    {wanted : List Tag} {source : String} {nodes : List Node}
    (hread : readConfiguration wanted source = .ok nodes) {node : Node}
    (hnode : node ∈ nodes) (hcountermand : rule.isCountermand node = true) :
    (Evidence.after rule {} nodes).verdict = none := by
  have hreadBy : readConfigurationBy Xml.elements? wanted source = .ok nodes :=
    hread
  have hcomplete := isComplete_of_readConfigurationBy hreadBy node hnode
  have hends := hcomplete.exists_findAttribute?
  have hcountermands : rule.countermands node = true := by
    rw [countermands, hcountermand, anchorFails,
      Node.failsLookup_eq_false hends]
    rfl
  apply Evidence.verdict_eq_none_of_countermanded
  rw [Evidence.after_countermanded,
    List.any_eq_true.mpr ⟨node, hnode, hcountermands⟩, Bool.or_true]

theorem exists_elements?_of_readConfiguration {wanted : List Tag}
    {source : String} {nodes : List Node}
    (hread : readConfiguration wanted source = .ok nodes) :
    ∃ elements, Xml.elements? (Cursor.ofText source) = some elements := by
  unfold readConfiguration at hread
  split at hread
  · contradiction
  · next elements helements => exact ⟨elements, helements⟩

/-- The nodes are those of the elements with the names of wanted kinds, wherever
these stand. -/
theorem forall₂_isShownBy_of_placed? {wanted : List Tag} {source : String}
    {nodes : List Node} (hread : readConfiguration wanted source = .ok nodes)
    {placed : List Xml.Placed}
    (hplaced : Xml.placed? (Cursor.ofText source) = some placed) :
    List.Forall₂ (fun p node => p.element.IsShownBy wanted node)
      (placed.filter fun p => p.element.isWanted wanted) nodes := by
  have helements := Xml.elements?_of_placed? hplaced
  obtain ⟨found, hfound, hshown⟩ :=
    mapM_nodeOfElement wanted (Xml.startsIn_of_elements? helements)
  rw [List.filter_map, List.forall₂_map_left_iff] at hshown
  have hnodes : readConfiguration wanted source = .ok (found.filterMap id) := by
    rw [readConfiguration, helements]
    dsimp only
    rw [hfound]
    rfl
  rw [hread, Except.ok.injEq] at hnodes
  rw [hnodes]
  exact hshown

/-- Where the nodes of a text come from.  The innermost element around another
is an element of the document too.  The nodes are those of the elements with the
names of wanted kinds, wherever these stand; so a node of forms comes from
inside `authentication` and one of grants from inside `authorization` if, and
only if, the document has such elements nowhere else.  A node that countermands
a compound rule settles it, wherever its element stands. -/
theorem nodes_stand_as_documented_iff {wanted : List Tag} {source : String}
    {nodes : List Node} (hread : readConfiguration wanted source = .ok nodes) :
    ∃ placed, Xml.placed? (Cursor.ofText source) = some placed ∧
      Xml.elements? (Cursor.ofText source) =
        some (placed.map Xml.Placed.element) ∧
      (∀ p ∈ placed, ∀ name outer, p.around = name :: outer →
        ∃ q ∈ placed, q.element.name = name ∧ q.around = outer) ∧
      let found := placed.filter fun p => p.element.isWanted wanted
      List.Forall₂ (fun p node => p.element.IsShownBy wanted node) found nodes ∧
        (List.Forall₂ (fun p node => ∀ tag, node.kind = .element tag →
          p.StandsAs tag) found nodes ↔
          ∀ p ∈ found,
            ∀ tag ∈ Tag.ofElementName? (String.ofList p.element.name),
              p.StandsAs tag) ∧
        ∀ rule : CompoundRule, ∀ node ∈ nodes, rule.isCountermand node = true →
          (Evidence.after rule {} nodes).verdict = none := by
  obtain ⟨elements, helements⟩ := exists_elements?_of_readConfiguration hread
  obtain ⟨placed, hplaced⟩ := Xml.exists_placed?_of_elements? helements
  have hshown := forall₂_isShownBy_of_placed? hread hplaced
  refine ⟨placed, hplaced, Xml.elements?_of_placed? hplaced,
    fun p hp name outer => Xml.exists_parent_of_placed? hplaced hp,
    hshown, ?_, ?_⟩
  · apply forall₂_iff_of_forall₂ hshown
    intro p node hnode
    simp only [hnode.kind_eq_iff]
  · intro rule node hnode hcountermand
    exact rule.verdict_eq_none_of_isCountermand hread hnode hcountermand

namespace ElementPlacesWitness

/-- A site whose forms and grants stand where they are documented. -/
def text : String :=
  "<web><Authentication mode='Forms'><forms/></Authentication>" ++
    "<authorization><allow roles='admin'/></authorization></web>"

def nodes : List Node :=
  (readConfiguration [.forms, .allow] text).toOption.getD []

theorem readConfiguration_text :
    readConfiguration [.forms, .allow] text = .ok nodes :=
  eq_ok_of_isOk [] (by decide +kernel)

/-- What stands around the elements of the text. -/
theorem standsAs_of_placed? :
    ∀ placed ∈ Xml.placed? (Cursor.ofText text), ∀ p ∈ placed,
      ∀ tag ∈ Tag.ofElementName? (String.ofList p.element.name),
        p.StandsAs tag := by
  decide +kernel

theorem both_nodes_stand_as_documented :
    readConfiguration [.forms, .allow] text = .ok nodes ∧
      ∃ placed, Xml.placed? (Cursor.ofText text) = some placed ∧
        List.Forall₂ (fun p node => ∀ tag, node.kind = .element tag →
          p.StandsAs tag)
          (placed.filter fun p => p.element.isWanted [.forms, .allow])
          nodes := by
  obtain ⟨placed, hplaced, _, _, _, hplaces, _⟩ :=
    nodes_stand_as_documented_iff readConfiguration_text
  refine ⟨readConfiguration_text, placed, hplaced, hplaces.mpr ?_⟩
  intro p hp
  exact standsAs_of_placed? placed hplaced p (List.mem_of_mem_filter hp)

/-- The error log is open to remote users, and a menu has an entry that is
called like a grant. -/
def menu : String :=
  "<configuration><elmah><security allowRemoteAccess='1'/></elmah>" ++
    "<menu><allow roles='admin'/></menu></configuration>"

def analyzer : Analyzer := { rules := Builtin.rules, hasReader := true }

/-- The elements that the built-in rules ask for, and their nodes. -/
def menuElements : List Xml.Placed :=
  ((Xml.placed? (Cursor.ofText menu)).getD []).filter fun p =>
    p.element.isWanted Builtin.rules.tags

@[inherit_doc menuElements] def menuNodes : List Node :=
  (readConfiguration Builtin.rules.tags menu).toOption.getD []

/-- The entry of the menu is read as a grant and silences the rule on the error
log. -/
theorem menu_entry_countermands :
    menuElements.map (fun p => p.around.map String.ofList) =
        [["elmah", "configuration"], ["menu", "configuration"]] ∧
      menuNodes.map Node.kind = [.element .security, .element .allow] ∧
      menuNodes.any Builtin.remoteErrorLog.isAnchor = true ∧
      (Evidence.after Builtin.remoteErrorLog {} menuNodes).verdict.isSome =
        false ∧
      analyzer.analyzeSource "Web.config" menu [] =
        (.analyzed ⟨2, 0, 0⟩, []) := by
  decide +kernel

end ElementPlacesWitness

end WebConfigAudit
