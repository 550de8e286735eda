import WebConfigAudit.Proofs.ElementRanges
/-!
What the texts of entities do to the ranges of elements.  As long as every
entity that brings in elements ends just the ones that it starts, elements start
and end in one text, in this order.  Where no entity brings in elements, they
start in the order in which the text has them.
-/

namespace WebConfigAudit.Xml

open Text (Cursor Position)

/-- Whether pieces end every element that they start, and no other; `depth` of
them are open before. -/
def closesOwn : Nat → List Piece → Bool
  | depth, [] => depth == 0
  | depth, .tag t :: rest =>
      closesOwn (if t.ending = .opens then depth + 1 else depth) rest
  | 0, .endTag _ _ :: _ => false
  | depth + 1, .endTag _ _ :: rest => closesOwn depth rest
  | depth, .text _ :: rest => closesOwn depth rest
  | depth, .ignored :: rest => closesOwn depth rest

/-- The text of the entity ends every element that it starts, and no other. -/
def Entity.ClosesOwn (entity : Entity) : Prop :=
  ∀ pieces ∈ readContent entity.value, closesOwn 0 pieces = true

/-- The element comes out of an entity: its start tag stands in the text of the
entity. -/
def Element.IsFrom (element : Element) (entity : Entity) : Prop :=
  entity.value.Contains element.start

/-- An element that the events open comes out of the entity. -/
def Entity.OpensIn (entity : Entity) (events : List Event) : Prop :=
  ∃ name start, Event.opened name start ∈ events ∧ entity.value.Contains start

/-- Every entity that elements come out of ends the elements that it starts. -/
def EntitiesClose (entities : List Entity) (events : List Event) : Prop :=
  ∀ entity ∈ entities, entity.OpensIn events → entity.ClosesOwn

theorem EntitiesClose.of_suffix {entities : List Entity}
    {earlier later : List Event} (hclose : EntitiesClose entities later)
    (hgrows : earlier <:+ later) : EntitiesClose entities earlier := by
  rintro entity hentity ⟨name, start, hmem, hcontains⟩
  exact hclose entity hentity ⟨name, start, hgrows.subset hmem, hcontains⟩

namespace Ranges

variable {earlier middle later : Ranges}

/-- All elements that ended meanwhile end behind their start. -/
def EndBehind (earlier later : Ranges) : Prop :=
  ∀ range ∈ later.ended, range ∈ earlier.ended ∨ range.1.pos.Before range.2

theorem EndBehind.of_eq (hsame : later.ended = earlier.ended) :
    earlier.EndBehind later :=
  fun _ hrange => Or.inl (hsame ▸ hrange)

theorem EndBehind.trans (hfirst : earlier.EndBehind middle)
    (hsecond : middle.EndBehind later) : earlier.EndBehind later :=
  fun range hrange => (hsecond range hrange).elim (hfirst range) Or.inr

theorem EndBehind.of_cons {start : Cursor} {stop : Position}
    (hbefore : start.pos.Before stop)
    (hended : later.ended = (start, stop) :: earlier.ended) :
    earlier.EndBehind later := by
  intro range hrange
  rw [hended] at hrange
  rcases List.mem_cons.mp hrange with rfl | hrange
  · exact Or.inr hbefore
  · exact Or.inl hrange

end Ranges

/-- More events were added that leave the same elements open, and all elements
that ended meanwhile end behind their start. -/
structure Balances (entities : List Entity) (earlier later : List Event) :
    Prop where
  grows : earlier <:+ later
  neutral : EntitiesClose entities later →
    (Ranges.after later).opened = (Ranges.after earlier).opened ∧
      (Ranges.after earlier).EndBehind (Ranges.after later)

theorem Balances.refl (entities : List Entity) (events : List Event) :
    Balances entities events events :=
  ⟨List.suffix_rfl, fun _ => ⟨rfl, Ranges.EndBehind.of_eq rfl⟩⟩

theorem Balances.trans {entities : List Entity}
    {first second third : List Event} (hfirst : Balances entities first second)
    (hsecond : Balances entities second third) :
    Balances entities first third where
  grows := hfirst.grows.trans hsecond.grows
  neutral hclose := by
    obtain ⟨hopened, hended⟩ := hsecond.neutral hclose
    obtain ⟨hopened', hended'⟩ :=
      hfirst.neutral (hclose.of_suffix hsecond.grows)
    exact ⟨hopened.trans hopened', hended'.trans hended⟩

namespace Progress

variable {entities : List Entity} {levels : Nat} {p q : Progress}

/-- How the pieces of an entity's text are taken, if references may lie `levels`
deeper. -/
def entering (entities : List Entity) :
    Nat → Progress → List Piece → Option Progress
  | 0 => fun _ _ => none
  | levels + 1 => takeAll entities levels

theorem takeAll_eq (entities : List Entity) (levels : Nat) (p : Progress)
    (pieces : List Piece) :
    takeAll entities levels p pieces =
      pieces.foldlM (take entities levels (entering entities levels)) p := by
  cases levels <;> rfl

theorem takeAll_nil (htake : takeAll entities levels p [] = some q) :
    q = p := by
  rw [takeAll_eq] at htake
  cases htake
  rfl

theorem exists_of_takeAll_cons {piece : Piece} {pieces : List Piece}
    (htake : takeAll entities levels p (piece :: pieces) = some q) :
    ∃ next, p.take entities levels (entering entities levels) piece =
        some next ∧
      takeAll entities levels next pieces = some q := by
  rw [takeAll_eq, List.foldlM_cons] at htake
  obtain ⟨next, hnext, hrest⟩ := Option.bind_eq_some_iff.mp htake
  exact ⟨next, hnext, by rwa [takeAll_eq]⟩

/-- Events are only added. -/
theorem isKept_grows (entities : List Entity) (events : List Event) :
    IsKept entities (fun _ => True) fun p => events <:+ p.events where
  same p q hevents _ hp := by rwa [hevents]
  start levels p tag q _ hp hstart := by
    rcases start_cases hstart with
      ⟨_, hevents, _⟩ | ⟨_, _, hevents⟩ | ⟨_, _, hevents⟩
    · rwa [hevents]
    · rw [hevents]
      exact (hp.trans (List.suffix_cons _ _)).trans (List.suffix_cons _ _)
    · rw [hevents]
      exact hp.trans (List.suffix_cons _ _)
  finish p name stop q _ hp hfinish := by
    obtain ⟨_, _, _, _, hevents, _⟩ := finish_cases hfinish
    rw [hevents]
    exact hp.trans (List.suffix_cons _ _)
  inside _ _ _ _ _ _ := trivial

theorem events_suffix_of_takeAll {pieces : List Piece}
    (htake : takeAll entities levels p pieces = some q) :
    p.events <:+ q.events :=
  (isKept_grows entities p.events).of_takeAll (fun _ _ => trivial)
    List.suffix_rfl htake

section Text

variable {enter : Progress → List Piece → Option Progress} {depth : Nat}
  {run : Cursor}

theorem tagMet_of_takeText
    (htake : p.takeText entities depth enter run = some q) :
    q.tagMet = p.tagMet := by
  unfold takeText at htake
  obtain ⟨items, _, hrun⟩ := Option.bind_eq_some_iff.mp htake
  refine foldlM_invariant (P := fun s : Progress => s.tagMet = p.tagMet)
    ?_ rfl hrun
  intro s item t _ hs hstep
  split at hstep
  · simp only [Option.bind_eq_bind, Option.bind_eq_some_iff] at hstep
    obtain ⟨entity, _, references, _, pieces, _, inside, _, ⟨⟩⟩ := hstep
    exact hs
  · cases hstep
    exact hs

/-- A run of text is balanced if the text of each entity is. -/
theorem balances_of_takeText
    (henter : ∀ entity ∈ entities, ∀ pieces s t, readContent entity.value =
      some pieces → s.tagMet = false → enter s pieces = some t →
      Balances entities s.events t.events)
    (htake : p.takeText entities depth enter run = some q) :
    Balances entities p.events q.events := by
  unfold takeText at htake
  obtain ⟨items, _, hrun⟩ := Option.bind_eq_some_iff.mp htake
  refine foldlM_invariant
    (P := fun s : Progress => Balances entities p.events s.events) ?_
    (Balances.refl entities p.events) hrun
  intro s item t _ hs hstep
  split at hstep
  · simp only [Option.bind_eq_bind, Option.bind_eq_some_iff] at hstep
    obtain ⟨entity, hentity, references, _, pieces, hpieces, inside, hinside,
        ⟨⟩⟩ := hstep
    have hmem := List.mem_of_find?_eq_some hentity
    have hbalances := henter entity hmem pieces
      { s with tagMet := false, references := references } inside hpieces
      rfl hinside
    exact hs.trans hbalances
  · cases hstep
    exact hs

end Text

theorem tagMet_of_finish {name : QName} {stop : Position}
    (hfinish : p.finish name stop = some q) : p.tagMet = true := by
  unfold finish at hfinish
  split at hfinish
  · next hmet => exact hmet
  · contradiction

/-- The texts of entities are balanced. -/
def EntitiesBalance (entities : List Entity) (levels : Nat) : Prop :=
  ∀ entity ∈ entities, ∀ pieces s t, readContent entity.value = some pieces →
    s.tagMet = false →
    entering entities levels s pieces = some t →
    Balances entities s.events t.events

/-- The elements of one text are open on top of others, and all of them start
before the cursor. -/
structure Nests (c : Cursor) (own outer : List Cursor) (ranges : Ranges) :
    Prop where
  opened : ranges.opened = own ++ outer
  before : ∀ start ∈ own, start.pos.Before c.pos

section InTurn

variable {c d : Cursor} {own outer : List Cursor} {piece : Piece}
  {pieces : List Piece}

theorem Nests.of_reaches {ranges : Ranges} (hnests : Nests c own outer ranges)
    (hreaches : c.Reaches d) : Nests d own outer ranges :=
  ⟨hnests.opened,
    fun start hstart => hreaches.before (hnests.before start hstart)⟩

/-- What a piece leaves open of its text lies on top of the elements around it.
The pieces that come next end just that if together with the piece they end just
what was open before. -/
def KeepsNesting (d : Cursor) (own outer : List Cursor) (piece : Piece)
    (pieces : List Piece) (earlier later : Ranges) : Prop :=
  ∃ left, Nests d left outer later ∧
    (closesOwn own.length (piece :: pieces) = true →
      closesOwn left.length pieces = true) ∧
    earlier.EndBehind later

theorem keepsNesting_of_start {tag : StartTag}
    (htakes : (Piece.tag tag).Takes c d)
    (hstart : p.start entities levels tag = some q)
    (hnests : Nests d own outer p.ranges) :
    KeepsNesting d own outer (.tag tag) pieces p.ranges q.ranges := by
  have hbehind := htakes.before_of_tag
  obtain ⟨rfl, hstop, _⟩ := htakes
  rcases ranges_of_start hstart with
    ⟨hending, hranges⟩ | ⟨hending, hranges⟩ | ⟨hending, hranges⟩
  · rw [hranges]
    exact ⟨own, hnests, by simp [closesOwn, hending],
      Ranges.EndBehind.of_eq rfl⟩
  · have hforward : tag.start.pos.Before tag.stop := by
      rw [hstop]
      exact hbehind (by rw [hending]; decide)
    rw [hranges]
    exact ⟨own, ⟨hnests.opened, hnests.before⟩, by simp [closesOwn, hending],
      Ranges.EndBehind.of_cons hforward rfl⟩
  · have hopened := hbehind (by rw [hending]; decide)
    rw [hranges]
    exact ⟨tag.start :: own,
      ⟨congrArg _ hnests.opened,
        List.forall_mem_cons.mpr ⟨hopened, hnests.before⟩⟩,
      by simp [closesOwn, hending], Ranges.EndBehind.of_eq rfl⟩

/-- An end tag ends an element of the same text, as far as the text has one
open. -/
theorem keepsNesting_of_finish {name : QName}
    (hfinish : p.finish name d.pos = some q)
    (hnests : Nests d own outer p.ranges)
    (hown : outer = [] ∨
      closesOwn own.length (.endTag name d.pos :: pieces) = true) :
    KeepsNesting d own outer (.endTag name d.pos) pieces p.ranges q.ranges := by
  rw [ranges_of_finish hfinish]
  cases own with
  | nil =>
      -- the text has no element open, so there is nothing to end
      obtain rfl : outer = [] := hown.resolve_right (by simp [closesOwn])
      rw [Ranges.note_closed_of_nil hnests.opened]
      exact ⟨[], hnests, by simp [closesOwn], Ranges.EndBehind.of_eq rfl⟩
  | cons start own =>
      rw [Ranges.note_closed hnests.opened]
      obtain ⟨hbefore, hothers⟩ := List.forall_mem_cons.mp hnests.before
      exact ⟨own, ⟨rfl, hothers⟩, by simp [closesOwn],
        Ranges.EndBehind.of_cons hbefore rfl⟩

theorem keepsNesting_of_take (hbalance : EntitiesBalance entities levels)
    (hreaches : c.Reaches d) (htakes : piece.Takes c d)
    (htake : p.take entities levels (entering entities levels) piece = some q)
    (hclose : EntitiesClose entities q.events)
    (hnests : Nests c own outer p.ranges)
    (hown : outer = [] ∨ closesOwn own.length (piece :: pieces) = true) :
    KeepsNesting d own outer piece pieces p.ranges q.ranges := by
  have hnestsHere := hnests.of_reaches hreaches
  cases piece with
  | tag tag => exact keepsNesting_of_start htakes htake hnestsHere
  | endTag name stop =>
      obtain ⟨rfl, _⟩ := htakes
      exact keepsNesting_of_finish htake hnestsHere hown
  | text run =>
      obtain ⟨hopened, hended⟩ :=
        (balances_of_takeText hbalance htake).neutral hclose
      exact ⟨own, ⟨hopened.trans hnests.opened, hnestsHere.before⟩, id, hended⟩
  | ignored =>
      cases htake
      exact ⟨own, hnestsHere, id, Ranges.EndBehind.of_eq rfl⟩

/-- What the pieces of a text do to the ranges, one after the other. -/
theorem nests_of_takeAll (hbalance : EntitiesBalance entities levels)
    (hread : ReadInTurn c pieces d)
    (htake : takeAll entities levels p pieces = some q)
    (hclose : EntitiesClose entities q.events)
    (hnests : Nests c own outer p.ranges)
    (hown : outer = [] ∨ closesOwn own.length pieces = true) :
    (∃ left, q.ranges.opened = left ++ outer ∧
        (closesOwn own.length pieces = true → left = [])) ∧
      p.ranges.EndBehind q.ranges := by
  induction hread generalizing p own with
  | nil c =>
      obtain rfl := takeAll_nil htake
      refine ⟨⟨own, hnests.opened, fun hnothing => ?_⟩,
        Ranges.EndBehind.of_eq rfl⟩
      simpa [closesOwn] using hnothing
  | cons _ hreaches htakes _ ih =>
      obtain ⟨next, hpiece, hrest⟩ := exists_of_takeAll_cons htake
      have hcloseNext := hclose.of_suffix (events_suffix_of_takeAll hrest)
      obtain ⟨left, hleft, hcloses, hended⟩ :=
        keepsNesting_of_take hbalance hreaches htakes hpiece hcloseNext
          hnests hown
      obtain ⟨⟨last, hopened, hlast⟩, hlater⟩ :=
        ih hrest hleft (hown.imp_right hcloses)
      exact ⟨⟨last, hopened, fun hall => hlast (hcloses hall)⟩,
        hended.trans hlater⟩

/-- An entity that opens no element of its own text has no tags for others to be
ended by, since an end tag is refused before the first start tag of a text. -/
theorem closesOwn_of_not_opensIn {entity : Entity}
    (hcontains : entity.value.Contains c) (hread : ReadInTurn c pieces d)
    (htake : takeAll entities levels p pieces = some q)
    (hmet : p.tagMet = false) (hnone : ¬ entity.OpensIn q.events) :
    closesOwn 0 pieces = true := by
  induction hread generalizing p with
  | nil c => rfl
  | @cons c e d piece rest hne hreaches htakes hrest ih =>
      obtain ⟨next, hpiece, htakeRest⟩ := exists_of_takeAll_cons htake
      have hgrows := events_suffix_of_takeAll htakeRest
      have hafter := hcontains.trans hreaches.contains
      cases piece with
      | tag tag =>
          obtain ⟨rfl, _, hcut, _⟩ := htakes
          have hopens : .opened tag.name.localName tag.start ∉ next.events :=
            fun hmem => hnone ⟨tag.name.localName, tag.start,
              hgrows.subset hmem, hcontains⟩
          rcases start_cases hpiece with
            ⟨hending, _⟩ | ⟨_, _, hevents⟩ | ⟨_, _, hevents⟩
          · -- the text is cut off within the tag, and no piece comes after that
            cases hrest with
            | nil => simp [closesOwn, hending]
            | cons hmore => exact absurd (hcut hending) hmore
          · exact absurd (by simp [hevents]) hopens
          · exact absurd (by simp [hevents]) hopens
      | endTag name stop =>
          rw [tagMet_of_finish hpiece] at hmet
          contradiction
      | text run =>
          exact ih hafter htakeRest ((tagMet_of_takeText hpiece).trans hmet)
      | ignored =>
          cases hpiece
          exact ih hafter htakeRest hmet

end InTurn

/-- However deep references lie, the texts of entities are balanced. -/
theorem entitiesBalance (entities : List Entity) (levels : Nat) :
    EntitiesBalance entities levels := by
  induction levels with
  | zero =>
      intro entity _ pieces s t _ _ htake
      contradiction
  | succ levels ih =>
      intro entity hentity pieces s t hcontent hmet htake
      obtain ⟨d, hread⟩ := exists_readInTurn_of_readContent hcontent
      refine ⟨events_suffix_of_takeAll htake, fun hclose => ?_⟩
      have hown : closesOwn 0 pieces = true := by
        by_cases hopens : entity.OpensIn t.events
        · exact hclose entity hentity hopens pieces hcontent
        · exact closesOwn_of_not_opensIn (Cursor.Contains.refl _) hread htake
            hmet hopens
      have hnests : Nests entity.value [] s.ranges.opened s.ranges :=
        ⟨rfl, List.forall_mem_nil _⟩
      obtain ⟨⟨left, hopened, hleft⟩, hended⟩ :=
        nests_of_takeAll ih hread htake hclose hnests (Or.inr hown)
      rw [hleft hown, List.nil_append] at hopened
      exact ⟨hopened, hended⟩

/-- Events were added that open no elements but those that come out of
entities. -/
def Adds (entities : List Entity) (earlier later : List Event) : Prop :=
  ∃ more, later = more ++ earlier ∧ ∀ name start,
    Event.opened name start ∈ more →
    ∃ entity ∈ entities, entity.value.Contains start

/-- The piece was read from the text of an entity. -/
def IsEntityPiece (entities : List Entity) (piece : Piece) : Prop :=
  ∃ entity ∈ entities, piece.StandsIn entity.value

theorem Adds.cons {earlier later : List Event}
    (hadds : Adds entities earlier later) {event : Event}
    (hevent : ∀ name start, event = .opened name start →
      ∃ entity ∈ entities, entity.value.Contains start) :
    Adds entities earlier (event :: later) := by
  obtain ⟨more, rfl, hmore⟩ := hadds
  refine ⟨event :: more, rfl, fun name start hmem => ?_⟩
  rcases List.mem_cons.mp hmem with hfirst | hmem
  · exact hevent name start hfirst.symm
  · exact hmore name start hmem

theorem isKept_adds (entities : List Entity) (events : List Event) :
    IsKept entities (IsEntityPiece entities) fun p =>
      Adds entities events p.events where
  same p q hevents _ hp := by rwa [hevents]
  start levels p tag q hpiece hp hstart := by
    obtain ⟨entity, hentity, d, e, hcontains, rfl, _⟩ := hpiece
    have hopened :
        Adds entities events
          (.opened tag.name.localName tag.start :: p.events) :=
      hp.cons fun name start hsame => by
        cases hsame
        exact ⟨entity, hentity, hcontains⟩
    rcases start_cases hstart with
      ⟨_, hevents, _⟩ | ⟨_, _, hevents⟩ | ⟨_, _, hevents⟩
    · rwa [hevents]
    · rw [hevents]
      exact hopened.cons fun _ _ hsame => by cases hsame
    · rwa [hevents]
  finish p name stop q _ hp hfinish := by
    obtain ⟨_, _, _, _, hevents, _⟩ := finish_cases hfinish
    rw [hevents]
    exact hp.cons fun _ _ hsame => by cases hsame
  inside entity hentity pieces hcontent piece hpiece := by
    obtain ⟨d, hread⟩ := exists_readInTurn_of_readContent hcontent
    exact ⟨entity, hentity,
      hread.standsIn (Cursor.Contains.refl _) piece hpiece⟩

theorem adds_of_takeText {run : Cursor} {depth : Nat}
    (htake : p.takeText entities depth (entering entities levels) run =
      some q) :
    Adds entities p.events q.events := by
  refine (isKept_adds entities p.events).of_takeText ?_ ⟨[], rfl, by simp⟩ htake
  intro s pieces t hpieces hs hinside
  cases levels with
  | zero => contradiction
  | succ levels =>
      exact (isKept_adds entities p.events).of_takeAll hpieces hs hinside

/-- Where the elements start that events open. -/
def startsOf (events : List Event) : List Cursor :=
  events.filterMap fun
    | .opened _ start => some start
    | .closed _ => none

theorem mem_startsOf {events : List Event} {start : Cursor} :
    start ∈ startsOf events ↔ ∃ name, Event.opened name start ∈ events := by
  rw [startsOf, List.mem_filterMap]
  constructor
  · rintro ⟨event, hmem, hstart⟩
    cases event with
    | opened name next =>
        cases hstart
        exact ⟨name, hmem⟩
    | closed stop => contradiction
  · rintro ⟨name, hmem⟩
    exact ⟨_, hmem, rfl⟩

/-- The elements so far start before the cursor, in the order in which they were
opened. -/
structure InOrder (c : Cursor) (events : List Event) : Prop where
  before : ∀ start ∈ startsOf events, start.pos.Before c.pos
  ordered : (startsOf events).Pairwise fun later earlier =>
    earlier.pos.Before later.pos

section Order

variable {c d : Cursor} {piece : Piece} {pieces : List Piece}

theorem InOrder.of_reaches {earlier later : List Event}
    (horder : InOrder c earlier) (hreaches : c.Reaches d)
    (hsame : startsOf later = startsOf earlier) : InOrder d later where
  before start hstart := hreaches.before (horder.before start (hsame ▸ hstart))
  ordered := hsame ▸ horder.ordered

theorem InOrder.of_opened {earlier later : List Event}
    (horder : InOrder c earlier) (hbefore : c.pos.Before d.pos)
    (hstarts : startsOf later = c :: startsOf earlier) : InOrder d later := by
  refine ⟨?_, ?_⟩
  · rw [hstarts]
    exact List.forall_mem_cons.mpr
      ⟨hbefore, fun start hstart => (horder.before start hstart).trans hbefore⟩
  · rw [hstarts]
    exact List.pairwise_cons.mpr ⟨horder.before, horder.ordered⟩

/-- Where no element comes out of an entity, a run of text opens none. -/
theorem startsOf_of_takeText {run : Cursor} {depth : Nat}
    (htake : p.takeText entities depth (entering entities levels) run = some q)
    (hnone : ∀ entity ∈ entities, ¬ entity.OpensIn q.events) :
    startsOf q.events = startsOf p.events := by
  obtain ⟨more, hevents, hmore⟩ := adds_of_takeText htake
  have hnothing : startsOf more = [] := by
    rw [List.eq_nil_iff_forall_not_mem]
    intro start hstart
    obtain ⟨name, hmem⟩ := mem_startsOf.mp hstart
    obtain ⟨entity, hentity, hcontains⟩ := hmore name start hmem
    refine hnone entity hentity ⟨name, start, ?_, hcontains⟩
    rw [hevents]
    exact List.mem_append_left _ hmem
  rw [hevents, startsOf, List.filterMap_append, ← startsOf, hnothing]
  rfl

/-- Where no element comes out of an entity, a piece only opens what it is
itself. -/
theorem inOrder_of_take (hreaches : c.Reaches d) (htakes : piece.Takes c d)
    (htake : p.take entities levels (entering entities levels) piece = some q)
    (hnone : ∀ entity ∈ entities, ¬ entity.OpensIn q.events)
    (horder : InOrder c p.events) : InOrder d q.events := by
  cases piece with
  | tag tag =>
      have hbehind := htakes.before_of_tag
      obtain ⟨rfl, _⟩ := htakes
      rcases start_cases htake with
        ⟨_, hevents, _⟩ | ⟨hending, _, hevents⟩ | ⟨hending, _, hevents⟩
      · exact horder.of_reaches hreaches (congrArg startsOf hevents)
      · exact horder.of_opened (hbehind (by rw [hending]; decide))
          (congrArg startsOf hevents)
      · exact horder.of_opened (hbehind (by rw [hending]; decide))
          (congrArg startsOf hevents)
  | endTag name stop =>
      obtain ⟨_, _, _, _, hevents, _⟩ := finish_cases htake
      have hsame : startsOf q.events = startsOf p.events := by
        rw [hevents]
        rfl
      exact horder.of_reaches hreaches hsame
  | text run =>
      exact horder.of_reaches hreaches (startsOf_of_takeText htake hnone)
  | ignored =>
      cases htake
      exact horder.of_reaches hreaches rfl

theorem inOrder_of_takeAll (hread : ReadInTurn c pieces d)
    (htake : takeAll entities levels p pieces = some q)
    (hnone : ∀ entity ∈ entities, ¬ entity.OpensIn q.events)
    (horder : InOrder c p.events) : InOrder d q.events := by
  induction hread generalizing p with
  | nil c =>
      obtain rfl := takeAll_nil htake
      exact horder
  | cons _ hreaches htakes _ ih =>
      obtain ⟨next, hpiece, hrest⟩ := exists_of_takeAll_cons htake
      have hgrows := events_suffix_of_takeAll hrest
      have hnoneNext : ∀ entity ∈ entities, ¬ entity.OpensIn next.events := by
        rintro entity hentity ⟨name, start, hmem, hcontains⟩
        exact hnone entity hentity ⟨name, start, hgrows.subset hmem, hcontains⟩
      exact ih hrest (inOrder_of_take hreaches htakes hpiece hnoneNext horder)

end Order

end Progress

section Documents

variable {c : Cursor} {elements : List Element}

theorem exists_mem_elementsOf {around : List (List Char)} {events : List Event}
    (hclosed : openAfter around events = []) {name : List Char} {start : Cursor}
    (hopened : Event.opened name start ∈ events) :
    ∃ element ∈ elementsOf events, element.start = start := by
  induction events generalizing around with
  | nil => contradiction
  | cons event events ih =>
      cases event with
      | opened next place =>
          rw [elementsOf]
          rcases List.mem_cons.mp hopened with hfirst | hother
          · cases hfirst
            obtain ⟨stop, hstop⟩ := exists_stopOf? hclosed
            exact ⟨⟨name, start, stop⟩, by simp [hstop], rfl⟩
          · obtain ⟨element, hmem, hstart⟩ := ih hclosed hother
            exact ⟨element, List.mem_append_right _ hmem, hstart⟩
      | closed stop =>
          rcases List.mem_cons.mp hopened with hfirst | hother
          · contradiction
          · exact ih hclosed hother

/-- An entity opens elements if some elements of the text come out of it. -/
theorem exists_isFrom_of_opensIn {events : List Event}
    (hclosed : openAfter [] events.reverse = []) {entity : Entity}
    (hopens : entity.OpensIn events) :
    ∃ element ∈ elementsOf events.reverse, element.IsFrom entity := by
  obtain ⟨name, start, hmem, hcontains⟩ := hopens
  obtain ⟨element, helement, rfl⟩ :=
    exists_mem_elementsOf hclosed (List.mem_reverse.mpr hmem)
  exact ⟨element, helement, hcontains⟩

/-- Every entity of the text that elements come out of ends just the elements
that it starts. -/
def EntitiesCloseOwn (c : Cursor) (elements : List Element) : Prop :=
  ∀ document ∈ readDocument c, ∀ entity ∈ document.entities,
    (∃ element ∈ elements, element.IsFrom entity) → entity.ClosesOwn

/-- No element comes out of an entity of the text. -/
def NoneExpanded (c : Cursor) (elements : List Element) : Prop :=
  ∀ document ∈ readDocument c, ∀ entity ∈ document.entities,
      ∀ element ∈ elements,
    ¬ element.IsFrom entity

theorem NoneExpanded.entitiesCloseOwn (hnone : NoneExpanded c elements) :
    EntitiesCloseOwn c elements := by
  rintro document hdocument entity hentity ⟨element, helement, hfrom⟩
  exact absurd hfrom (hnone document hdocument entity hentity element helement)

/-- Elements end behind their start as long as entities end just the elements
that they start. -/
theorem before_of_entitiesCloseOwn (helements : elements? c = some elements)
    (hclose : EntitiesCloseOwn c elements) :
    ∀ element ∈ elements, element.start.pos.Before element.stop := by
  obtain ⟨document, p, hdocument, htake, hclosed, rfl⟩ :=
    exists_progress_of_elements? helements
  obtain ⟨root, hroot⟩ := Document.exists_root_of_readDocument hdocument
  obtain ⟨after, hpieces⟩ := hroot.pieces
  have hentities : EntitiesClose document.entities p.events :=
    fun entity hentity hopens =>
      hclose document hdocument entity hentity
        (exists_isFrom_of_opensIn hclosed hopens)
  have hinitial : Progress.Nests root [] [] ({} : Progress).ranges :=
    ⟨rfl, List.forall_mem_nil _⟩
  obtain ⟨_, hended⟩ := Progress.nests_of_takeAll (Progress.entitiesBalance _ _)
    (readInTurn_of_readElement hpieces) htake hentities hinitial (Or.inl rfl)
  intro element helement
  rcases hended _ (Ranges.mem_ended_after helement) with hnone | hbefore
  · exact absurd hnone List.not_mem_nil
  · exact hbefore

theorem map_start_elementsOf (events : List Event) :
    ((elementsOf events).map Element.start).Sublist
      (Progress.startsOf events) := by
  induction events with
  | nil => exact List.Sublist.refl _
  | cons event events ih =>
      cases event with
      | opened name start =>
          rw [elementsOf, List.map_append]
          cases hstop : stopOf? 0 events with
          | none => exact ih.cons start
          | some stop => exact ih.cons_cons start
      | closed stop => exact ih

/-- Elements of the text itself start in the order in which they are listed. -/
theorem pairwise_start_of_noneExpanded (helements : elements? c = some elements)
    (hnone : NoneExpanded c elements) :
    elements.Pairwise fun element other =>
      element.start.pos.Before other.start.pos := by
  obtain ⟨document, p, hdocument, htake, hclosed, rfl⟩ :=
    exists_progress_of_elements? helements
  obtain ⟨root, hroot⟩ := Document.exists_root_of_readDocument hdocument
  obtain ⟨after, hpieces⟩ := hroot.pieces
  have hopensNone : ∀ entity ∈ document.entities,
      ¬ entity.OpensIn p.events := by
    intro entity hentity hopens
    obtain ⟨element, helement, hfrom⟩ := exists_isFrom_of_opensIn hclosed hopens
    exact hnone document hdocument entity hentity element helement hfrom
  have hinitial : Progress.InOrder root ({} : Progress).events :=
    ⟨List.forall_mem_nil _, List.Pairwise.nil⟩
  have horder :=
    (Progress.inOrder_of_takeAll (readInTurn_of_readElement hpieces) htake
      hopensNone hinitial).ordered
  have hstarts : (Progress.startsOf p.events.reverse).Pairwise
      fun start other => start.pos.Before other.pos := by
    rw [Progress.startsOf, List.filterMap_reverse, List.pairwise_reverse]
    exact horder
  have helementStarts := hstarts.sublist (map_start_elementsOf p.events.reverse)
  rwa [List.pairwise_map] at helementStarts

end Documents

end WebConfigAudit.Xml
