import WebConfigAudit.Proofs.DocumentPassage
import WebConfigAudit.Xml.Element
/-!
Where elements start.  However deep references lead, every element that opens
does so at a start tag that stands in the text of the document.
-/

namespace WebConfigAudit.Xml

open Text (Cursor Position)

variable {c : Cursor}

/-- A run of fallible steps keeps what each of them keeps. -/
theorem foldlM_invariant {σ α : Type} {f : σ → α → Option σ} {P : σ → Prop}
    {as : List α} (hstep : ∀ s a t, a ∈ as → P s → f s a = some t → P t)
    {s t : σ} (hs : P s) (hrun : as.foldlM f s = some t) : P t := by
  induction as generalizing s with
  | nil =>
      cases hrun
      exact hs
  | cons a as ih =>
      rw [List.foldlM_cons] at hrun
      obtain ⟨next, hnext, hrest⟩ := Option.bind_eq_some_iff.mp hrun
      exact ih (fun s b t hb => hstep s b t (List.mem_cons_of_mem a hb))
        (hstep s a next List.mem_cons_self hs hnext) hrest

/-- An element starts in a text, at a tag that people wrote, and has the local
part of its name. -/
def StartsIn (c : Cursor) (name : List Char) (start : Cursor) : Prop :=
  c.Contains start ∧ ∃ (written : WrittenTag) (inside : List Char),
    start.rest = written.chars ++ inside ∧ name = localPart written.name

/-- An element that the event opens starts in the text. -/
def Event.IsWritten (c : Cursor) : Event → Prop
  | .opened name start => StartsIn c name start
  | .closed _ => True

namespace Progress

variable {entities : List Entity} {levels : Nat} {p q : Progress}

section Steps

theorem same_of_addAttributes {attributes : List Attribute}
    (hadd : p.addAttributes entities levels attributes = some q) :
    q.events = p.events ∧ q.opened = p.opened := by
  refine foldlM_invariant (P := fun q : Progress => q.events = p.events ∧
    q.opened = p.opened) ?_
    ⟨rfl, rfl⟩ hadd
  intro s a t _ hs hstep
  simp only [Option.bind_eq_bind, Option.bind_eq_some_iff, Prod.exists] at hstep
  obtain ⟨value, references, _, pending, _, ⟨⟩⟩ := hstep
  exact hs

theorem same_of_settle? {scope : List Binding}
    (hsettle : p.settle? = some (scope, q)) :
    q.events = p.events ∧ q.opened = p.opened := by
  unfold settle? at hsettle
  dsimp only at hsettle
  split at hsettle
  · cases hsettle
    exact ⟨rfl, rfl⟩
  · contradiction

/-- A start tag that is cut off opens nothing, and one of an empty element
closes what it opens. -/
theorem start_cases {tag : StartTag}
    (hstart : p.start entities levels tag = some q) :
    (tag.ending = .cutOff ∧ q.events = p.events ∧ q.opened = p.opened) ∨
      (tag.ending = .empty ∧ q.opened = p.opened ∧
        q.events = .closed tag.stop :: .opened tag.name.localName tag.start ::
          p.events) ∨
      (tag.ending = .opens ∧
        (∃ scope, q.opened = ⟨tag.name, scope⟩ :: p.opened) ∧
        q.events = .opened tag.name.localName tag.start :: p.events) := by
  unfold start at hstart
  simp only [Option.bind_eq_bind, Option.bind_eq_some_iff] at hstart
  obtain ⟨added, hadd, hstart⟩ := hstart
  have hadded := same_of_addAttributes hadd
  split at hstart
  · next hending =>
      cases hstart
      exact Or.inl ⟨hending, hadded⟩
  · next hwhole =>
      simp only [Option.bind_eq_some_iff, Prod.exists] at hstart
      obtain ⟨scope, settled, hsettle, _, _, hstart⟩ := hstart
      have hsettled := same_of_settle? hsettle
      split at hstart
      · next hending =>
          cases hstart
          exact Or.inr
            (Or.inl ⟨hending, by rw [hsettled.2, hadded.2],
              by rw [hsettled.1, hadded.1]⟩)
      · next hfull =>
          cases hstart
          have hending : tag.ending = .opens := by
            cases hkind : tag.ending with
            | opens => rfl
            | empty => exact absurd hkind hfull
            | cutOff => exact absurd hkind hwhole
          exact Or.inr (Or.inr ⟨hending, ⟨scope, by rw [hsettled.2, hadded.2]⟩,
            by rw [hsettled.1, hadded.1]⟩)

/-- An end tag closes the innermost open element, which has its name. -/
theorem finish_cases {name : QName} {stop : Position}
    (hfinish : p.finish name stop = some q) :
    ∃ element outer, p.opened = element :: outer ∧ element.name = name ∧
      q.events = .closed stop :: p.events ∧ q.opened = outer := by
  unfold finish at hfinish
  split at hfinish
  · simp only [Option.bind_eq_bind, Option.bind_eq_some_iff, Prod.exists]
      at hfinish
    obtain ⟨scope, settled, hsettle, hfinish⟩ := hfinish
    obtain ⟨hevents, hopened⟩ := same_of_settle? hsettle
    split at hfinish
    · contradiction
    · next element outer hinnermost =>
        split at hfinish
        · next hname =>
            cases hfinish
            exact ⟨element, outer, hopened.symm.trans hinnermost, hname,
              by rw [hevents], rfl⟩
        · contradiction
  · contradiction

end Steps

section Invariants

/-- What is said of a document under way is about its events and its open
elements, and both tags keep it.  `Q` tells which pieces may come, also out of
an entity. -/
structure IsKept (entities : List Entity) (Q : Piece → Prop)
    (P : Progress → Prop) : Prop where
  same : ∀ p q : Progress, q.events = p.events → q.opened = p.opened → P p → P q
  start : ∀ levels p tag q, Q (.tag tag) → P p →
    p.start entities levels tag = some q → P q
  finish : ∀ p name stop q, Q (.endTag name stop) → P p →
    p.finish name stop = some q → P q
  inside : ∀ entity ∈ entities, ∀ pieces, readContent entity.value =
      some pieces →
    ∀ piece ∈ pieces, Q piece

variable {Q : Piece → Prop} {P : Progress → Prop} {enter : Progress →
  List Piece → Option Progress}

/-- A run of text keeps the invariant if the pieces of an entity's value do. -/
theorem IsKept.of_takeText {depth : Nat} {run : Cursor}
    (hkept : IsKept entities Q P)
    (henter : ∀ p pieces q, (∀ piece ∈ pieces, Q piece) → P p →
      enter p pieces = some q → P q)
    (hp : P p) (htake : p.takeText entities depth enter run = some q) :
    P q := by
  unfold takeText at htake
  obtain ⟨items, _, hrun⟩ := Option.bind_eq_some_iff.mp htake
  refine foldlM_invariant ?_ hp hrun
  intro s item t _ hs hstep
  split at hstep
  · simp only [Option.bind_eq_bind, Option.bind_eq_some_iff] at hstep
    obtain ⟨entity, hentity, references, _, pieces, hpieces, inside, hinside,
        ⟨⟩⟩ := hstep
    have hmem :=
      hkept.inside entity (List.mem_of_find?_eq_some hentity) pieces hpieces
    -- entering and leaving set counters only; what was opened before is still
    -- there
    refine hkept.same inside _ rfl rfl (henter _ pieces inside hmem ?_ hinside)
    exact hkept.same s _ rfl rfl hs
  · cases hstep
    exact hs

theorem IsKept.of_take {piece : Piece} (hkept : IsKept entities Q P)
    (henter : ∀ p pieces q, (∀ piece ∈ pieces, Q piece) → P p →
      enter p pieces = some q → P q)
    (hpiece : Q piece) (hp : P p)
    (htake : p.take entities levels enter piece = some q) : P q := by
  cases piece with
  | tag tag => exact hkept.start levels p tag q hpiece hp htake
  | endTag name stop => exact hkept.finish p name stop q hpiece hp htake
  | text run => exact hkept.of_takeText henter hp htake
  | ignored =>
      cases htake
      exact hp

theorem IsKept.of_takeAll {pieces : List Piece} (hkept : IsKept entities Q P)
    (hpieces : ∀ piece ∈ pieces, Q piece) (hp : P p)
    (htake : takeAll entities levels p pieces = some q) : P q := by
  -- the pieces inside an entity's value are taken with one level less
  induction levels generalizing p pieces q with
  | zero =>
      refine foldlM_invariant ?_ hp htake
      intro s piece t hmem hs hstep
      exact hkept.of_take (fun _ _ _ _ _ hnone => by contradiction)
        (hpieces piece hmem) hs hstep
  | succ levels ih =>
      refine foldlM_invariant ?_ hp htake
      intro s piece t hmem hs hstep
      exact hkept.of_take
        (fun _ _ _ hinside hbefore hafter => ih hinside hbefore hafter)
        (hpieces piece hmem) hs hstep

end Invariants

/-- Every element that was opened so far starts in the text. -/
def IsWritten (c : Cursor) (p : Progress) : Prop :=
  ∀ event ∈ p.events, event.IsWritten c

theorem isWritten_initial (c : Cursor) : IsWritten c {} := by
  simp [IsWritten]

theorem isKept_isWritten
    (hentities : ∀ entity ∈ entities, c.Contains entity.value) :
    IsKept entities (Piece.IsWithin c) (IsWritten c) where
  same p q hevents _ hp := by
    rw [IsWritten, hevents]
    exact hp
  start levels p tag q htag hp hstart := by
    rcases start_cases hstart with
      ⟨_, hevents, _⟩ | ⟨hending, _, hevents⟩ | ⟨hending, _, hevents⟩
    · rw [IsWritten, hevents]
      exact hp
    · rw [IsWritten, hevents, List.forall_mem_cons, List.forall_mem_cons]
      exact ⟨trivial, ⟨htag.1, htag.2 (by rw [hending]; decide)⟩, hp⟩
    · rw [IsWritten, hevents, List.forall_mem_cons]
      exact ⟨⟨htag.1, htag.2 (by rw [hending]; decide)⟩, hp⟩
  finish p name stop q _ hp hfinish := by
    obtain ⟨_, _, _, _, hevents, _⟩ := finish_cases hfinish
    rw [IsWritten, hevents, List.forall_mem_cons]
    exact ⟨trivial, hp⟩
  inside entity hentity pieces hpieces piece hpiece :=
    (isWithin_of_readContent hpieces piece hpiece).of_contains
      (hentities entity hentity)

end Progress

theorem isWritten_of_events? {document : Document} {events : List Event}
    (hdocument : document.IsWithin c)
    (hevents : document.events? = some events) :
    ∀ event ∈ events, event.IsWritten c := by
  unfold Document.events? at hevents
  obtain ⟨p, htake, hevents⟩ := Option.bind_eq_some_iff.mp hevents
  have hp : p.IsWritten c :=
    (Progress.isKept_isWritten hdocument.entities).of_takeAll
      hdocument.pieces (Progress.isWritten_initial c) htake
  split at hevents
  · cases hevents
    exact fun event hevent => hp event (List.mem_reverse.mp hevent)
  · contradiction

theorem opened_of_mem_elementsOf {events : List Event} {element : Element}
    (hmem : element ∈ elementsOf events) :
    Event.opened element.name element.start ∈ events := by
  induction events with
  | nil => contradiction
  | cons event events ih =>
      cases event with
      | opened name start =>
          rw [elementsOf, List.mem_append] at hmem
          rcases hmem with hfirst | hother
          · obtain ⟨stop, _, rfl⟩ := List.mem_map.mp hfirst
            exact List.mem_cons_self
          · exact List.mem_cons_of_mem _ (ih hother)
      | closed stop => exact List.mem_cons_of_mem _ (ih hmem)

/-- Every element of a document starts in its text, at a tag that people
wrote. -/
theorem startsIn_of_elements? {elements : List Element}
    (helements : elements? c = some elements) :
    ∀ element ∈ elements, StartsIn c element.name element.start := by
  unfold elements? at helements
  simp only [Option.bind_eq_bind, Option.bind_eq_some_iff] at helements
  obtain ⟨document, hdocument, events, hevents, ⟨⟩⟩ := helements
  intro element hmem
  exact isWritten_of_events? (Document.isWithin_of_readDocument hdocument)
    hevents _ (opened_of_mem_elementsOf hmem)

end WebConfigAudit.Xml
