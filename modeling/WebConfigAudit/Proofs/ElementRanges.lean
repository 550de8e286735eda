import Mathlib.Data.List.Chain
import WebConfigAudit.Proofs.ElementPlaces
import WebConfigAudit.Proofs.PiecesInTurn
import WebConfigAudit.Proofs.TokenPlaces
/-!
The ranges of elements, from the opening bracket of the start tag to the closing
bracket of what ends the element.  An end tag stands before a start tag or after
it, never within, so a range that is not backward holds the whole start tag.
-/

namespace WebConfigAudit

open Text (Cursor Position)

section Tokens

/-- The places where tokens start and end. -/
def tokenBounds (tokens : List RawToken) : List Position :=
  tokens.flatMap fun token => [token.span.start, token.span.stop]

/-- The places where the tokens of a node start and end, in the order of the
tokens. -/
def Node.tokenBounds (node : Node) : List Position :=
  node.tagTokens.flatMap fun token => [token.span.start, token.span.stop]

theorem WrittenTag.IsShownBy.tokenBounds_eq {tag : WrittenTag} {pos : Position}
    {node : Node} (hshows : tag.IsShownBy pos node) :
    node.tokenBounds = tokenBounds (tag.tokensAt pos).tokens := by
  have hpairs := hshows.tagTokens
  rw [Node.tokenBounds, tokenBounds]
  generalize (tag.tokensAt pos).tokens = tokens at hpairs ⊢
  generalize node.tagTokens = shown at hpairs ⊢
  induction hpairs with
  | nil => rfl
  | cons hfirst _ ih =>
      rw [List.flatMap_cons, List.flatMap_cons, hfirst.span, ih]

instance : Trans Position.Before Position.Before Position.Before :=
  ⟨Position.Before.trans⟩

/-- Between its front and what comes after it, the tokens of an attribute are in
order. -/
theorem WrittenAttribute.isChain_tokensAt (attributes : List WrittenAttribute)
    {pos stop : Position}
    (hstop : (pos.advance (attributes.flatMap chars)).Before stop) :
    (pos :: tokenBounds (attributeTokens (allTokensAt pos attributes)) ++
      [stop]).IsChain
      Position.Before := by
  induction attributes generalizing pos with
  | nil => exact List.isChain_pair.mpr hstop
  | cons a others ih =>
      rw [List.flatMap_cons, Position.advance_append] at hstop
      have hrest := ih hstop
      have hgap : pos.Before (pos.advance a.gap) :=
        Position.before_advance a.gap_ne_nil pos
      have hname :
          (pos.advance a.gap).Before ((pos.advance a.gap).advance a.name) :=
        Position.before_advance a.name_ne_nil _
      have hvalue : ((pos.advance a.gap).advance a.name).Before
          (pos.advance a.beforeValue) := by
        rw [beforeValue, Position.advance_append, Position.advance_append,
          Position.advance_append, ← Position.advance_append _ a.beforeEquals]
        exact Position.before_advance (by simp) _
      have hquoted :
          (pos.advance a.beforeValue).Before (pos.advance a.chars) := by
        rw [chars, Position.advance_append]
        exact Position.before_advance (by simp [quoted]) _
      have hend : (pos.advance a.beforeValue).advance a.quoted =
          pos.advance a.chars :=
        (Position.advance_append _ _ _).symm
      simp only [allTokensAt, attributeTokens, tokenBounds,
        List.flatMap_cons, tokensAt, RawToken.placed, List.cons_append,
        List.nil_append, List.isChain_cons_cons, hend]
      exact ⟨hgap, hname, hvalue, hquoted, hrest⟩

theorem WrittenTag.exists_chars_eq (tag : WrittenTag) :
    ∃ text, tag.chars = text ++ ['>'] := by
  obtain ⟨front, hending⟩ : ∃ front, tag.ending = front ++ ['>'] := by
    unfold ending
    split
    · exact ⟨['/'], rfl⟩
    · exact ⟨[], rfl⟩
  exact ⟨'<' :: tag.name ++
      (tag.attributes.flatMap WrittenAttribute.chars ++ tag.gap ++ front),
    by simp [chars, afterName, hending]⟩

/-- The tokens of a tag come in order after its opening bracket, and the tag
ends behind them. -/
theorem WrittenTag.pairwise_tokensAt (tag : WrittenTag) (pos : Position) :
    (pos :: tokenBounds (tag.tokensAt pos).tokens ++
      [pos.advance tag.chars]).Pairwise
      Position.Before := by
  have hname : (pos.after '<').Before ((pos.after '<').advance tag.name) :=
    Position.before_advance tag.name_ne_nil _
  have hstop : ((pos.advance ('<' :: tag.name)).advance
      (tag.attributes.flatMap WrittenAttribute.chars)).Before
        (pos.advance tag.chars) := by
    rw [chars, afterName, List.append_assoc, Position.advance_append,
      Position.advance_append _ (tag.attributes.flatMap _)]
    refine Position.before_advance ?_ _
    unfold ending
    split <;> simp
  rw [← List.isChain_iff_pairwise]
  exact List.isChain_cons_cons.mpr ⟨pos.before_after '<',
    List.isChain_cons_cons.mpr
      ⟨hname, WrittenAttribute.isChain_tokensAt tag.attributes hstop⟩⟩

end Tokens

namespace Xml

/-- The elements under way: where the open ones start, the innermost first, and
the ranges of those that have ended. -/
structure Ranges where
  opened : List Cursor := []
  ended : List (Cursor × Position) := []

namespace Ranges

variable {ranges : Ranges} {events : List Event} {start : Cursor}
  {stop : Position} {G : Cursor → Prop} {R : Cursor → Position → Prop}

/-- The ranges after one more event.  An end tag ends the innermost open
element. -/
def note (ranges : Ranges) : Event → Ranges
  | .opened _ start => { ranges with opened := start :: ranges.opened }
  | .closed stop =>
      match ranges.opened with
      | [] => ranges
      | start :: outer => ⟨outer, (start, stop) :: ranges.ended⟩

/-- The ranges that events leave behind, the latest event first. -/
def after (events : List Event) : Ranges :=
  events.foldr (fun event ranges => ranges.note event) {}

theorem note_closed {outer : List Cursor}
    (hopened : ranges.opened = start :: outer) (stop : Position) :
    ranges.note (.closed stop) = ⟨outer, (start, stop) :: ranges.ended⟩ := by
  rw [note, hopened]

theorem note_closed_of_nil (hopened : ranges.opened = []) (stop : Position) :
    ranges.note (.closed stop) = ranges := by
  rw [note, hopened]

/-- Open elements start at places of one kind, and the others have ranges of one
kind. -/
structure AllIn (G : Cursor → Prop) (R : Cursor → Position → Prop)
    (ranges : Ranges) : Prop where
  opened : ∀ start ∈ ranges.opened, G start
  ended : ∀ range ∈ ranges.ended, R range.1 range.2

theorem allIn_initial : AllIn G R {} :=
  ⟨List.forall_mem_nil _, List.forall_mem_nil _⟩

theorem AllIn.note_closed (hall : ranges.AllIn G R)
    (hstop : ∀ start, G start → R start stop) :
    (ranges.note (.closed stop)).AllIn G R := by
  cases hopened : ranges.opened with
  | nil => rwa [note_closed_of_nil hopened]
  | cons start outer =>
      have hopen := hall.opened
      rw [hopened, List.forall_mem_cons] at hopen
      rw [Ranges.note_closed hopened]
      exact ⟨hopen.2,
        List.forall_mem_cons.mpr ⟨hstop start hopen.1, hall.ended⟩⟩

theorem mem_ended_note (hmem : (start, stop) ∈ ranges.ended) (event : Event) :
    (start, stop) ∈ (ranges.note event).ended := by
  cases event with
  | opened name next => exact hmem
  | closed place =>
      cases hopened : ranges.opened with
      | nil => rwa [note_closed_of_nil hopened]
      | cons next outer =>
          rw [note_closed hopened]
          exact List.mem_cons_of_mem _ hmem

theorem mem_ended_foldl (hmem : (start, stop) ∈ ranges.ended)
    (events : List Event) :
    (start, stop) ∈ (events.foldl note ranges).ended := by
  induction events generalizing ranges with
  | nil => exact hmem
  | cons event events ih => exact ih (mem_ended_note hmem event)

/-- An element ends where the events say that it does, whatever is open around
it. -/
theorem mem_ended_of_stopOf? (inner : List Cursor) {outer : List Cursor}
    (hopened : ranges.opened = inner ++ start :: outer)
    (hstop : stopOf? inner.length events = some stop) :
    (start, stop) ∈ (events.foldl note ranges).ended := by
  induction events generalizing ranges inner with
  | nil => contradiction
  | cons event events ih =>
      cases event with
      | opened name next =>
          exact ih (next :: inner) (congrArg (next :: ·) hopened) hstop
      | closed place =>
          cases inner with
          | nil =>
              cases hstop
              refine mem_ended_foldl ?_ events
              rw [note_closed hopened]
              exact List.mem_cons_self
          | cons next inner =>
              refine ih inner ?_ hstop
              rw [note_closed hopened]
              rfl

theorem mem_ended_of_mem_elementsOf {element : Element}
    (hmem : element ∈ elementsOf events) (ranges : Ranges) :
    (element.start, element.stop) ∈ (events.foldl note ranges).ended := by
  induction events generalizing ranges with
  | nil => contradiction
  | cons event events ih =>
      cases event with
      | opened name start =>
          rw [elementsOf, List.mem_append] at hmem
          rcases hmem with hfirst | hother
          · obtain ⟨stop, hstop, rfl⟩ := List.mem_map.mp hfirst
            rw [Option.mem_toList] at hstop
            have hopened : (ranges.note (.opened name start)).opened =
                start :: ranges.opened := rfl
            have hended := mem_ended_of_stopOf? [] hopened hstop
            exact hended
          · exact ih hother _
      | closed stop => exact ih hmem _

/-- The ranges of the elements are among those that the events leave behind. -/
theorem mem_ended_after {element : Element}
    (hmem : element ∈ elementsOf events.reverse) :
    (element.start, element.stop) ∈ (after events).ended := by
  have hended := mem_ended_of_mem_elementsOf hmem {}
  rwa [List.foldl_reverse] at hended

end Ranges

namespace Progress

variable {entities : List Entity} {p q : Progress} {Q : Piece → Prop}
  {G : Cursor → Prop} {R : Cursor → Position → Prop}

/-- The ranges of a document under way. -/
def ranges (p : Progress) : Ranges :=
  Ranges.after p.events

theorem ranges_eq_of_events_eq (hevents : q.events = p.events) :
    q.ranges = p.ranges :=
  congrArg Ranges.after hevents

/-- What a start tag does to the ranges. -/
theorem ranges_of_start {levels : Nat} {tag : StartTag}
    (hstart : p.start entities levels tag = some q) :
    (tag.ending = .cutOff ∧ q.ranges = p.ranges) ∨
      (tag.ending = .empty ∧
        q.ranges = ⟨p.ranges.opened, (tag.start, tag.stop) :: p.ranges.ended⟩) ∨
      (tag.ending = .opens ∧
        q.ranges = ⟨tag.start :: p.ranges.opened, p.ranges.ended⟩) := by
  rcases start_cases hstart with
    ⟨hending, hevents, _⟩ | ⟨hending, _, hevents⟩ | ⟨hending, _, hevents⟩
  · exact Or.inl ⟨hending, ranges_eq_of_events_eq hevents⟩
  · exact Or.inr (Or.inl ⟨hending, congrArg Ranges.after hevents⟩)
  · exact Or.inr (Or.inr ⟨hending, congrArg Ranges.after hevents⟩)

theorem ranges_of_finish {name : QName} {stop : Position}
    (hfinish : p.finish name stop = some q) :
    q.ranges = p.ranges.note (.closed stop) := by
  obtain ⟨_, _, _, _, hevents, _⟩ := finish_cases hfinish
  exact congrArg Ranges.after hevents

theorem isKept_allIn
    (htag : ∀ tag : StartTag, Q (.tag tag) → tag.ending ≠ .cutOff →
      G tag.start ∧ R tag.start tag.stop)
    (hend : ∀ name stop start, Q (.endTag name stop) → G start → R start stop)
    (hinside : ∀ entity ∈ entities, ∀ pieces, readContent entity.value =
      some pieces → ∀ piece ∈ pieces, Q piece) :
    IsKept entities Q fun p => p.ranges.AllIn G R where
  same p q hevents _ hp := by rwa [ranges_eq_of_events_eq hevents]
  start levels p tag q hQ hp hstart := by
    rcases ranges_of_start hstart with
      ⟨_, hranges⟩ | ⟨hending, hranges⟩ | ⟨hending, hranges⟩
    · rwa [hranges]
    · obtain ⟨_, hrange⟩ := htag tag hQ (by rw [hending]; decide)
      rw [hranges]
      exact ⟨hp.opened, List.forall_mem_cons.mpr ⟨hrange, hp.ended⟩⟩
    · obtain ⟨htagged, _⟩ := htag tag hQ (by rw [hending]; decide)
      rw [hranges]
      exact ⟨List.forall_mem_cons.mpr ⟨htagged, hp.opened⟩, hp.ended⟩
  finish p name stop q hQ hp hfinish := by
    rw [ranges_of_finish hfinish]
    exact hp.note_closed fun start => hend name stop start hQ
  inside := hinside

end Progress

section Stretches

variable {c d : Cursor} {start : Cursor} {stop : Position}

/-- A start tag of the text opens at the cursor and has no second opening
bracket in it. -/
structure IsTagIn (c start : Cursor) : Prop where
  contains : c.Contains start
  between : ∃ d written, IsTagBetween start d written

/-- The place is behind a closing bracket of the text, and it does not lie
within the start tag at the cursor. -/
structure IsRangeIn (c start : Cursor) (stop : Position) : Prop where
  closes : ∃ before after, c.rest = before ++ '>' :: after ∧
    stop = c.pos.advance (before ++ ['>'])
  outside : ∃ d written, IsTagBetween start d written ∧
    (start.pos.Before stop → ¬ stop.Before d.pos)

/-- The piece was read from some stretch of the text. -/
def Piece.StandsIn (c : Cursor) (piece : Piece) : Prop :=
  ∃ d e, c.Contains d ∧ piece.Takes d e

theorem ReadInTurn.standsIn {pieces : List Piece} (hcontains : c.Contains start)
    (hread : ReadInTurn start pieces d) :
    ∀ piece ∈ pieces, piece.StandsIn c := by
  intro piece hpiece
  obtain ⟨e, stop, hreaches, htakes⟩ := hread.exists_takes hpiece
  exact ⟨e, stop, hcontains.trans hreaches.contains, htakes⟩

theorem isRangeIn_of_tag {tag : StartTag} (hstands : (Piece.tag tag).StandsIn c)
    (hending : tag.ending ≠ .cutOff) :
    IsTagIn c tag.start ∧ IsRangeIn c tag.start tag.stop := by
  obtain ⟨d, e, hcontains, rfl, hstop, _, htag⟩ := hstands
  obtain ⟨written, hbetween⟩ := htag hending
  refine ⟨⟨hcontains, e, written, hbetween⟩, ?_, e, written, hbetween, ?_⟩
  · obtain ⟨text, htext⟩ := written.exists_chars_eq
    have hholds := hcontains.holds hbetween.1
    rw [htext] at hholds
    rw [hstop]
    exact hholds.closes
  · rw [hstop]
    exact fun _ hbefore => hbefore.ne rfl

/-- An end tag stands before a start tag or after it. -/
theorem isRangeIn_of_endTag {name : QName}
    (hstands : (Piece.endTag name stop).StandsIn c) (hstart : IsTagIn c start) :
    IsRangeIn c start stop := by
  obtain ⟨d, e, hcontains, rfl, inside, hpasses, hplain⟩ := hstands
  obtain ⟨hcontainsTag, after, written, hbetween⟩ := hstart
  have hholds := hcontains.holds hpasses
  refine ⟨hholds.closes, after, written, hbetween, fun hbefore hwithin => ?_⟩
  · have htag : c.Holds start.pos ('<' :: (written.name ++ written.afterName))
        after.pos :=
      hcontainsTag.holds hbetween.1
    have hend : c.Holds d.pos ('<' :: ('/' :: (inside ++ ['>']))) e.pos :=
      hholds
    have hends : d.pos.Before e.pos := hpasses.before (by simp)
    rcases htag.disjoint hbetween.2 hend (by simp [hplain]) with
      ⟨rest, rest', hsame⟩ | hlater | hearlier
    · -- no name begins with the slash of an end tag
      obtain ⟨x, more, hname⟩ := List.exists_cons_of_ne_nil written.name_ne_nil
      rw [hname] at hsame
      have hplain := written.name_plain x (by simp [hname])
      simp only [List.cons_append, List.cons.injEq] at hsame
      rw [hsame.1] at hplain
      exact absurd hplain (by decide)
    · exact hlater (hends.trans hwithin)
    · exact hearlier hbefore

end Stretches

section Documents

variable {c : Cursor} {elements : List Element}

/-- The elements of a text are those of the events that its pieces leave
behind. -/
theorem exists_progress_of_elements? (helements : elements? c = some elements) :
    ∃ document p, readDocument c = some document ∧
      Progress.takeAll document.entities maxDepth {} document.pieces = some p ∧
      openAfter [] p.events.reverse = [] ∧
      elements = elementsOf p.events.reverse := by
  unfold elements? at helements
  simp only [Option.bind_eq_bind, Option.bind_eq_some_iff] at helements
  obtain ⟨document, hdocument, events, hevents, ⟨⟩⟩ := helements
  have hclosed := openAfter_of_events? hevents
  unfold Document.events? at hevents
  obtain ⟨p, htake, hevents⟩ := Option.bind_eq_some_iff.mp hevents
  split at hevents
  · cases hevents
    exact ⟨document, p, hdocument, htake, hclosed, rfl⟩
  · contradiction

/-- The range of an element ends behind a closing bracket, not within the
element's start tag. -/
theorem isRangeIn_of_elements? (helements : elements? c = some elements) :
    ∀ element ∈ elements, IsRangeIn c element.start element.stop := by
  obtain ⟨document, p, hdocument, htake, _, rfl⟩ :=
    exists_progress_of_elements? helements
  obtain ⟨root, hroot⟩ := Document.exists_root_of_readDocument hdocument
  obtain ⟨after, hpieces⟩ := hroot.pieces
  have hkept : Progress.IsKept document.entities (Piece.StandsIn c)
      fun p => p.ranges.AllIn (IsTagIn c) (IsRangeIn c) := by
    refine Progress.isKept_allIn (fun tag => isRangeIn_of_tag)
      (fun name stop start => isRangeIn_of_endTag) ?_
    intro entity hentity pieces hcontent
    obtain ⟨d, hread⟩ := exists_readInTurn_of_readContent hcontent
    exact hread.standsIn (hroot.entities entity hentity)
  have hall := hkept.of_takeAll
    ((readInTurn_of_readElement hpieces).standsIn hroot.reaches.contains)
    Ranges.allIn_initial htake
  exact fun element hmem => hall.ended _ (Ranges.mem_ended_after hmem)

end Documents

end Xml

end WebConfigAudit
