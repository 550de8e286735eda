import WebConfigAudit.Proofs.ElementStarts
import WebConfigAudit.Proofs.PrologLineBreaks
/-!
The elements of a document with a carriage return before every line feed.  Of
the two characters of a line end one blank is left in a value, so namespaces are
bound to the same names, and the same elements start and end at the same places.
-/

namespace WebConfigAudit.Xml

open Text (Cursor HasNoBreak isDigit)

/-- A run of steps agrees with the run of the steps that answer to them. -/
theorem foldlM_map_eq {σ σ' α α' : Type} {f : σ → α → Option σ}
    {f' : σ' → α' → Option σ'} {g : α → α'} {h : σ → σ'} {as : List α}
    (hstep : ∀ s a, a ∈ as → f' (h s) (g a) = (f s a).map h) (s : σ) :
    (as.map g).foldlM f' (h s) = (as.foldlM f s).map h := by
  induction as generalizing s with
  | nil => rfl
  | cons a as ih =>
      rw [List.map_cons, List.foldlM_cons, List.foldlM_cons,
        hstep s a List.mem_cons_self]
      refine map_bind_eq fun next _ => ?_
      exact ih (fun s b hb => hstep s b (List.mem_cons_of_mem a hb)) next

section References

variable {c d : Cursor}

/-- The item in the text with carriage returns, where a line feed makes two. -/
def Item.withReturns : Item → List Item
  | .plain c => (Text.withReturns [c]).map Item.plain
  | .reference r => [.reference r]

theorem keeps_readReferenceBody : Keeps id readReferenceBody := by
  intro c
  unfold readReferenceBody
  rw [startsWith_withReturns (by decide), startsWith_withReturns (by decide)]
  split
  · next hbegins =>
      have hdrop := drop_withReturns_of_startsWith (by decide) hbegins
      rw [show ['#', 'x'].length = 2 from rfl] at hdrop
      dsimp only
      rw [hdrop, Cursor.run_withReturns_of_unbroken (by decide) (by decide),
        Cursor.skip_withReturns (by decide), Option.map_map]
      rfl
  · split
    · next hbegins =>
        obtain ⟨rest, hrest⟩ := List.isPrefixOf_iff_prefix.mp hbegins
        dsimp only
        rw [Cursor.next_withReturns hrest.symm (by decide),
          Cursor.run_withReturns_of_unbroken (by decide) (by decide),
          Cursor.skip_withReturns (by decide), Option.map_map]
        rfl
    · rw [keeps_readName, Option.map_map, Option.map_map]
      rfl

theorem keeps_readReference : Keeps id readReference := by
  intro c
  unfold readReference
  simp only [Option.bind_eq_bind]
  rw [keeps_readReferenceBody]
  refine map_bind_eq fun ⟨r, after⟩ _ => ?_
  dsimp only
  rw [keepsPlace_char? (by decide)]
  exact map_bind_eq fun _ _ => rfl

theorem reaches_of_readReferenceBody {r : Reference}
    (hread : readReferenceBody c = some (r, d)) : c.Reaches d := by
  unfold readReferenceBody at hread
  split at hread
  · obtain ⟨x, _, ⟨⟩⟩ := Option.map_eq_some_iff.mp hread
    exact (c.reaches_drop 2).trans (Cursor.reaches_skip _ _)
  · split at hread
    · obtain ⟨x, _, ⟨⟩⟩ := Option.map_eq_some_iff.mp hread
      exact c.reaches_next.trans (Cursor.reaches_skip _ _)
    · obtain ⟨⟨name, after⟩, hname, ⟨⟩⟩ := Option.map_eq_some_iff.mp hread
      exact reaches_of_readName hname

theorem reaches_of_readReference {r : Reference}
    (hread : readReference c = some (r, d)) : c.Reaches d := by
  simp only [readReference, Option.bind_eq_bind, Option.bind_eq_some_iff,
    Prod.exists] at hread
  obtain ⟨r, after, hbody, afterEnd, hclose, ⟨⟩⟩ := hread
  exact (reaches_of_readReferenceBody hbody).trans
    (passes_of_char? hclose).reaches

theorem readItems_of_nil (fuel : Nat) (hrest : c.rest = []) :
    readItems fuel c = some [] := by
  cases fuel with
  | zero => rfl
  | succ fuel =>
      unfold readItems
      rw [hrest]

theorem readItems_plain {x : Char} {rest : List Char} (fuel : Nat)
    (hrest : c.rest = x :: rest) (hx : x ≠ '&') :
    readItems (fuel + 1) c = (readItems fuel c.next).map (.plain x :: ·) := by
  rw [readItems, hrest]
  exact if_neg hx

theorem readItems_reference {rest : List Char} (fuel : Nat)
    (hrest : c.rest = '&' :: rest) :
    readItems (fuel + 1) c = (readReference c.next).bind fun found =>
      (readItems fuel found.2).map (.reference found.1 :: ·) := by
  rw [readItems, hrest]
  refine (if_pos rfl).trans (congrArg _ (funext fun ⟨r, after⟩ => ?_))
  dsimp only
  cases readItems fuel after <;> rfl

theorem readItems_withReturns {fuel fuel' : Nat} (hfuel : c.rest.length ≤ fuel)
    (hfuel' : c.withReturns.rest.length ≤ fuel') :
    readItems fuel' c.withReturns =
      (readItems fuel c).map (List.flatMap Item.withReturns) := by
  induction fuel generalizing c fuel' with
  | zero =>
      have hrest : c.rest = [] :=
        List.eq_nil_of_length_eq_zero (Nat.le_zero.mp hfuel)
      rw [readItems_of_nil _ hrest, readItems_of_nil _ (by simp [hrest])]
      rfl
  | succ fuel ih =>
      cases hrest : c.rest with
      | nil =>
          rw [readItems_of_nil _ hrest, readItems_of_nil _ (by simp [hrest])]
          rfl
      | cons x rest =>
          have hnext : c.next.rest = rest := by rw [Cursor.next, hrest]
          have hrest' := congrArg Text.withReturns hrest
          rw [hrest, List.length_cons] at hfuel
          by_cases hfeed : x = '\n'
          · subst hfeed
            obtain ⟨hfollows, hskipped⟩ := Cursor.next_next_withReturns hrest
            rw [Cursor.withReturns_rest, hrest', Text.withReturns_lineFeed]
              at hfuel'
            simp only [List.length_cons] at hfuel'
            -- the line feed takes a second step, so there are two of them
            obtain ⟨fuel', rfl⟩ : ∃ n, fuel' = n + 2 := ⟨fuel' - 2, by omega⟩
            rw [readItems_plain _
                (hrest'.trans (Text.withReturns_lineFeed rest)) (by decide),
              readItems_plain _ hfollows (by decide), hskipped,
              readItems_plain _ hrest (by decide),
              ih (by rw [hnext]; omega)
                (by rw [Cursor.withReturns_rest, hnext]; omega)]
            simp only [Option.map_map]
            rfl
          · rw [Text.withReturns_cons hfeed] at hrest'
            rw [Cursor.withReturns_rest, hrest', List.length_cons] at hfuel'
            obtain ⟨fuel', rfl⟩ : ∃ n, fuel' = n + 1 := ⟨fuel' - 1, by omega⟩
            by_cases hamp : x = '&'
            · subst hamp
              rw [readItems_reference _ hrest', readItems_reference _ hrest,
                Cursor.next_withReturns hrest hfeed, keeps_readReference]
              refine map_bind_eq ?_
              rintro ⟨r, after⟩ hreference
              have hadvances := ((Cursor.passes_next hrest).advances
                (List.cons_ne_nil _ _)).trans_reaches
                  (reaches_of_readReference hreference)
              have hlength := hadvances.length_lt
              have hlength' := hadvances.withReturns.length_lt
              rw [hrest, List.length_cons] at hlength
              rw [c.withReturns_rest, hrest', List.length_cons] at hlength'
              dsimp only [id]
              rw [ih (by omega) (by omega)]
              simp only [Option.map_map]
              rfl
            · rw [readItems_plain _ hrest' hamp, readItems_plain _ hrest hamp,
                Cursor.next_withReturns hrest hfeed,
                ih (by rw [hnext]; omega)
                  (by rw [Cursor.withReturns_rest, hnext]; omega)]
              simp only [Option.map_map]
              refine congrFun (congrArg _ (funext fun items => ?_)) _
              simp [Item.withReturns, Text.withReturns_cons hfeed]

theorem itemsOf_withReturns (c : Cursor) :
    itemsOf c.withReturns = (itemsOf c).map (List.flatMap Item.withReturns) :=
  readItems_withReturns (Nat.le_refl _) (Nat.le_refl _)

theorem not_mem_readItems {fuel : Nat} {items : List Item} (hc : '\r' ∉ c.rest)
    (hread : readItems fuel c = some items) : Item.plain '\r' ∉ items := by
  induction fuel generalizing c items with
  | zero =>
      cases hread
      simp
  | succ fuel ih =>
      cases hrest : c.rest with
      | nil =>
          rw [readItems_of_nil _ hrest] at hread
          cases hread
          simp
      | cons x rest =>
          have hnext : '\r' ∉ c.next.rest :=
            (c.reaches_next).contains.not_mem hc
          by_cases hamp : x = '&'
          · subst hamp
            rw [readItems_reference _ hrest] at hread
            obtain ⟨⟨r, after⟩, hreference, hread⟩ :=
              Option.bind_eq_some_iff.mp hread
            obtain ⟨others, hothers, rfl⟩ := Option.map_eq_some_iff.mp hread
            have hafter :=
              (reaches_of_readReference hreference).contains.not_mem hnext
            rw [List.mem_cons, not_or]
            exact ⟨by simp, ih hafter hothers⟩
          · rw [readItems_plain _ hrest hamp] at hread
            obtain ⟨others, hothers, rfl⟩ := Option.map_eq_some_iff.mp hread
            rw [hrest, List.mem_cons, not_or] at hc
            rw [List.mem_cons, not_or, Item.plain.injEq]
            exact ⟨hc.1, ih hnext hothers⟩

theorem splitRuns_withReturns (items : List Item) :
    splitRuns (items.flatMap Item.withReturns) =
      (Text.withReturns (splitRuns items).1,
        (splitRuns items).2.map fun found =>
          (found.1, Text.withReturns found.2)) := by
  induction items with
  | nil => rfl
  | cons item items ih =>
      cases item with
      | plain x =>
          by_cases hx : x = '\n'
          · subst hx
            simp [Item.withReturns, splitRuns, ih]
          · simp [Item.withReturns, splitRuns, ih, Text.withReturns_cons hx]
      | reference r => simp [Item.withReturns, splitRuns, ih]

theorem not_mem_splitRuns {items : List Item}
    (hitems : Item.plain '\r' ∉ items) :
    '\r' ∉ (splitRuns items).1 ∧ ∀ found ∈ (splitRuns items).2,
      '\r' ∉ found.2 := by
  induction items with
  | nil => simp [splitRuns]
  | cons item items ih =>
      rw [List.mem_cons, not_or] at hitems
      obtain ⟨hfirst, hothers⟩ := ih hitems.2
      cases item with
      | plain x =>
          rw [Item.plain.injEq] at hitems
          simp only [splitRuns, List.mem_cons, not_or]
          exact ⟨⟨hitems.1, hfirst⟩, hothers⟩
      | reference r =>
          simp only [splitRuns, List.forall_mem_cons]
          exact ⟨by simp, hfirst, hothers⟩

theorem plainBlanks_cons {x : Char} (hx : x ≠ '\r') (cs : List Char) :
    plainBlanks (x :: cs) = (if isSpace x then ' ' else x) ::
      plainBlanks cs := by
  rw [plainBlanks]
  exact fun _ heq => absurd heq hx

/-- Both forms of a line end are one blank. -/
theorem plainBlanks_withReturns {cs : List Char} (hcs : '\r' ∉ cs) :
    plainBlanks (Text.withReturns cs) = plainBlanks cs := by
  induction cs with
  | nil => rfl
  | cons x cs ih =>
      rw [List.mem_cons, not_or] at hcs
      rw [plainBlanks_cons (Ne.symm hcs.1), ← ih hcs.2]
      by_cases hx : x = '\n'
      · subst hx
        rfl
      · rw [Text.withReturns_cons hx, plainBlanks_cons (Ne.symm hcs.1)]

variable {entities : List Entity}

theorem findEntity?_withReturns (entities : List Entity) (name : List Char) :
    findEntity? (entities.map Entity.withReturns) name =
      (findEntity? entities name).map Entity.withReturns := by
  rw [findEntity?, List.find?_map]
  rfl

/-- One reference and the run behind it, after what is expanded already; `inner`
expands the value of an entity. -/
def expandReference (entities : List Entity) (depth : Nat)
    (inner : Nat → Cursor → Option (List Char × Nat)) (done : List Char × Nat)
    (found : Reference × List Char) : Option (List Char × Nat) :=
  match found.1 with
  | .character c =>
      if depth = 0 then some (done.1 ++ c :: plainBlanks found.2, done.2)
      else if c = '<' then none
      else some (done.1 ++ plainBlanks [c] ++ plainBlanks found.2, done.2)
  | .entity name => do
      let entity ← findEntity? entities name
      let count ← countReference depth done.2
      let (text, count) ← inner count entity.value
      return (done.1 ++ text ++ plainBlanks found.2,
        if depth = 0 then 0 else count)

/-- A value at some depth, with its references expanded. -/
def expandWith (entities : List Entity) (depth : Nat)
    (inner : Nat → Cursor → Option (List Char × Nat)) (count : Nat)
    (value : Cursor) :
    Option (List Char × Nat) := do
  let items ← itemsOf value
  let (rest, count) ←
    (splitRuns items).2.foldlM (expandReference entities depth inner)
    ([], count)
  return (plainBlanks (splitRuns items).1 ++ rest, count)

theorem expandValue_zero (entities : List Entity) :
    expandValue entities 0 = expandWith entities maxDepth fun _ _ => none := by
  funext count value
  unfold expandValue expandWith
  refine congrArg (Option.bind _)
    (funext fun items => congrArg (Option.bind · _) ?_)
  refine congrArg (List.foldlM · _ _)
    (funext fun done => funext fun ⟨r, run⟩ => ?_)
  cases r <;> rfl

theorem expandValue_succ (entities : List Entity) (levels : Nat) :
    expandValue entities (levels + 1) =
      expandWith entities (maxDepth - (levels + 1))
        (expandValue entities levels) := by
  funext count value
  rw [expandValue]
  unfold expandWith
  refine congrArg (Option.bind _)
    (funext fun items => congrArg (Option.bind · _) ?_)
  refine congrArg (List.foldlM · _ _)
    (funext fun done => funext fun ⟨r, run⟩ => ?_)
  cases r <;> rfl

variable {inner inner' : Nat → Cursor → Option (List Char × Nat)} {depth : Nat}

theorem expandReference_withReturns
    (hinner : ∀ count, ∀ entity ∈ entities,
      inner' count entity.value.withReturns = inner count entity.value)
    (done : List Char × Nat) {found : Reference × List Char}
    (hfound : '\r' ∉ found.2) :
    expandReference (entities.map Entity.withReturns) depth inner' done
        (found.1, Text.withReturns found.2) =
      expandReference entities depth inner done found := by
  obtain ⟨r, run⟩ := found
  unfold expandReference
  cases r with
  | character c => simp only [plainBlanks_withReturns hfound]
  | entity name =>
      simp only [plainBlanks_withReturns hfound, findEntity?_withReturns,
        Option.bind_eq_bind]
      cases hentity : findEntity? entities name with
      | none => rfl
      | some entity =>
          have hvalue := fun count =>
            hinner count entity (List.mem_of_find?_eq_some hentity)
          simp only [Option.map_some, Option.bind_some,
            Entity.withReturns, hvalue]

theorem expandWith_withReturns
    (hinner : ∀ count, ∀ entity ∈ entities,
      inner' count entity.value.withReturns = inner count entity.value)
    (count : Nat) {value : Cursor} (hvalue : '\r' ∉ value.rest) :
    expandWith (entities.map Entity.withReturns) depth inner' count
        value.withReturns =
      expandWith entities depth inner count value := by
  unfold expandWith
  rw [itemsOf_withReturns]
  cases hitems : itemsOf value with
  | none => rfl
  | some items =>
      obtain ⟨hfirst, hothers⟩ :=
        not_mem_splitRuns (not_mem_readItems hvalue hitems)
      have hrun :=
        foldlM_map_eq (f := expandReference entities depth inner) (h := id)
          (fun done found hmem =>
            (expandReference_withReturns hinner done (hothers found hmem)).trans
              (congrFun Option.map_id _).symm) ([], count)
      rw [Option.map_id] at hrun
      simp only [Option.map_some, Option.bind_eq_bind, Option.bind_some,
        splitRuns_withReturns, plainBlanks_withReturns hfirst]
      exact congrArg (Option.bind · _) hrun

/-- The value that an attribute has does not depend on the form of line ends. -/
theorem expandValue_withReturns
    (hentities : ∀ entity ∈ entities, '\r' ∉ entity.value.rest)
    (levels count : Nat) {value : Cursor} (hvalue : '\r' ∉ value.rest) :
    expandValue (entities.map Entity.withReturns) levels count
        value.withReturns =
      expandValue entities levels count value := by
  induction levels generalizing count value with
  | zero =>
      rw [expandValue_zero, expandValue_zero]
      exact expandWith_withReturns (fun _ _ _ => rfl) count hvalue
  | succ levels ih =>
      rw [expandValue_succ, expandValue_succ]
      exact expandWith_withReturns
        (fun count entity hentity => ih count (hentities entity hentity))
        count hvalue

end References

/-- The event in the text with carriage returns. -/
def Event.withReturns : Event → Event
  | .opened name start => .opened name start.withReturns
  | .closed stop => .closed stop

/-- The element in the text with carriage returns. -/
def Element.withReturns (element : Element) : Element :=
  { element with start := element.start.withReturns }

namespace Progress

variable {entities : List Entity} {levels : Nat}

/-- The same progress in the text with carriage returns. -/
def withReturns (p : Progress) : Progress :=
  { p with events := p.events.map Event.withReturns }

theorem addAttributes_withReturns
    (hentities : ∀ entity ∈ entities, '\r' ∉ entity.value.rest)
    {attributes : List Attribute}
    (hattributes : ∀ a ∈ attributes, '\r' ∉ a.value.rest) (p : Progress) :
    p.withReturns.addAttributes (entities.map Entity.withReturns) levels
        (attributes.map Attribute.withReturns) =
      (p.addAttributes entities levels attributes).map withReturns := by
  refine foldlM_map_eq (fun p a ha => ?_) p
  have hvalue :=
    expandValue_withReturns hentities levels p.references (hattributes a ha)
  simp only [withReturns, Attribute.withReturns, Option.bind_eq_bind]
  rw [hvalue]
  cases expandValue entities levels p.references a.value with
  | none => rfl
  | some found =>
      obtain ⟨value, references⟩ := found
      dsimp only [Option.bind_some]
      cases p.pending.add? a.name value <;> rfl

theorem settle?_withReturns (p : Progress) :
    p.withReturns.settle? = p.settle?.map fun found =>
      (found.1, found.2.withReturns) := by
  unfold settle?
  change (if p.pending.isProper (p.pending.scope p.around) then
    some (p.pending.scope p.around, { p with pending := {} }.withReturns)
      else none) = _
  dsimp only
  split
  · rfl
  · rfl

theorem start_withReturns
    (hentities : ∀ entity ∈ entities, '\r' ∉ entity.value.rest) {tag : StartTag}
    (htag : tag.HasNoReturns) (p : Progress) :
    p.withReturns.start (entities.map Entity.withReturns) levels
        tag.withReturns =
      (p.start entities levels tag).map withReturns := by
  unfold start
  simp only [Option.bind_eq_bind]
  refine (congrArg (Option.bind · _) (addAttributes_withReturns hentities htag
    { p with tagMet := true })).trans (map_bind_eq fun added _ => ?_)
  change (if tag.ending = .cutOff then some added.withReturns else _) = _
  split
  · rfl
  · rw [settle?_withReturns]
    refine map_bind_eq fun ⟨scope, settled⟩ _ => ?_
    change ((resolve? scope tag.name.qualifier).bind fun _ =>
      if tag.ending = .empty then _ else _) = _
    dsimp only
    cases resolve? scope tag.name.qualifier with
    | none => rfl
    | some uri =>
        dsimp only [Option.bind_some]
        split
        · rfl
        · rfl

theorem finish_withReturns (p : Progress) (name : QName)
    (stop : Text.Position) :
    p.withReturns.finish name stop = (p.finish name stop).map withReturns := by
  unfold finish
  rw [show p.withReturns.tagMet = p.tagMet from rfl]
  split
  · simp only [Option.bind_eq_bind]
    rw [settle?_withReturns]
    refine map_bind_eq fun ⟨scope, settled⟩ _ => ?_
    dsimp only [withReturns]
    cases settled.opened with
    | nil => rfl
    | cons element outer =>
        dsimp only
        split
        · rfl
        · rfl
  · rfl

variable {enter enter' : Progress → List Piece → Option Progress}

/-- Take one item of a run of text. -/
def takeItem (entities : List Entity) (depth : Nat)
    (enter : Progress → List Piece → Option Progress) (p : Progress) :
    Item → Option Progress
  | .reference (.entity name) => do
      let entity ← findEntity? entities name
      let references ← countReference depth p.references
      let pieces ← readContent entity.value
      let inside ← enter { p with tagMet := false, references := references }
        pieces
      return { inside with
        tagMet := p.tagMet, references := if depth = 0 then 0
          else inside.references }
  | _ => some p

theorem takeText_eq (entities : List Entity) (depth : Nat) (p : Progress)
    (run : Cursor) :
    p.takeText entities depth enter run =
      (itemsOf run).bind fun items =>
        items.foldlM (takeItem entities depth enter) p := by
  unfold takeText
  refine congrArg (Option.bind _)
    (funext fun items => congrArg (List.foldlM · p items) ?_)
  funext p item
  cases item with
  | plain c => rfl
  | reference r => cases r <;> rfl

theorem takeItem_withReturns
    (hentities : ∀ entity ∈ entities, '\r' ∉ entity.value.rest)
    (henter : ∀ p pieces, (∀ piece ∈ pieces, piece.HasNoReturns) →
      enter' p.withReturns (pieces.map Piece.withReturns) =
        (enter p pieces).map withReturns)
    (depth : Nat) (p : Progress) (item : Item) :
    item.withReturns.foldlM
        (takeItem (entities.map Entity.withReturns) depth enter')
        p.withReturns =
      (takeItem entities depth enter p item).map withReturns := by
  cases item with
  | plain c =>
      by_cases hc : c = '\n'
      · subst hc
        rfl
      · rw [Item.withReturns, Text.withReturns_cons hc]
        rfl
  | reference r =>
      cases r with
      | character c => rfl
      | entity name =>
          rw [Item.withReturns, List.foldlM_cons]
          simp only [takeItem, List.foldlM_nil, bind_pure, Option.bind_eq_bind]
          rw [findEntity?_withReturns]
          refine map_bind_eq fun entity hentity => ?_
          have hvalue := hentities entity (List.mem_of_find?_eq_some hentity)
          rw [show p.withReturns.references = p.references from rfl]
          cases countReference depth p.references with
          | none => rfl
          | some references =>
              dsimp only [Option.bind_some, Entity.withReturns]
              rw [readContent_withReturns]
              refine map_bind_eq fun pieces hpieces => ?_
              have hinside :=
                henter { p with tagMet := false, references } pieces
                  (hasNoReturns_of_readContent hvalue hpieces)
              exact (congrArg (Option.bind · _) hinside).trans
                (map_bind_eq fun inside _ => rfl)

theorem takeText_withReturns
    (hentities : ∀ entity ∈ entities, '\r' ∉ entity.value.rest)
    (henter : ∀ p pieces, (∀ piece ∈ pieces, piece.HasNoReturns) →
      enter' p.withReturns (pieces.map Piece.withReturns) =
        (enter p pieces).map withReturns)
    (depth : Nat) (p : Progress) (run : Cursor) :
    p.withReturns.takeText (entities.map Entity.withReturns) depth enter'
        run.withReturns =
      (p.takeText entities depth enter run).map withReturns := by
  rw [takeText_eq, takeText_eq, itemsOf_withReturns]
  refine map_bind_eq fun items hitems => ?_
  clear hitems
  induction items generalizing p with
  | nil => rfl
  | cons item items ih =>
      rw [List.flatMap_cons, List.foldlM_append, List.foldlM_cons,
        takeItem_withReturns hentities henter]
      exact map_bind_eq fun next _ => ih next

theorem take_withReturns
    (hentities : ∀ entity ∈ entities, '\r' ∉ entity.value.rest)
    (henter : ∀ p pieces, (∀ piece ∈ pieces, piece.HasNoReturns) →
      enter' p.withReturns (pieces.map Piece.withReturns) =
        (enter p pieces).map withReturns)
    {piece : Piece} (hpiece : piece.HasNoReturns) (p : Progress) :
    p.withReturns.take (entities.map Entity.withReturns) levels enter'
        piece.withReturns =
      (p.take entities levels enter piece).map withReturns := by
  cases piece with
  | tag tag => exact start_withReturns hentities hpiece p
  | endTag name stop => exact finish_withReturns p name stop
  | text run => exact takeText_withReturns hentities henter _ p run
  | ignored => rfl

theorem takeAll_withReturns
    (hentities : ∀ entity ∈ entities, '\r' ∉ entity.value.rest)
    {pieces : List Piece} (hpieces : ∀ piece ∈ pieces, piece.HasNoReturns)
    (p : Progress) :
    takeAll (entities.map Entity.withReturns) levels p.withReturns
        (pieces.map Piece.withReturns) =
      (takeAll entities levels p pieces).map withReturns := by
  induction levels generalizing p pieces with
  | zero =>
      exact foldlM_map_eq (fun p piece hpiece =>
        take_withReturns hentities (fun _ _ _ => rfl)
          (hpieces piece hpiece) p) p
  | succ levels ih =>
      exact foldlM_map_eq (fun p piece hpiece =>
        take_withReturns hentities (fun p _ hinside => ih hinside p)
          (hpieces piece hpiece) p) p

end Progress

theorem events?_withReturns {document : Document}
    (hdocument : document.HasNoReturns) :
    document.withReturns.events? =
      document.events?.map (List.map Event.withReturns) := by
  unfold Document.events?
  simp only [Option.bind_eq_bind]
  refine (congrArg (Option.bind · _)
    (Progress.takeAll_withReturns hdocument.entities
      hdocument.pieces {})).trans (map_bind_eq fun p _ => ?_)
  dsimp only [Progress.withReturns]
  rw [List.isEmpty_map]
  split
  · simp
  · rfl

theorem stopOf?_withReturns (depth : Nat) (events : List Event) :
    stopOf? depth (events.map Event.withReturns) = stopOf? depth events := by
  induction events generalizing depth with
  | nil => rfl
  | cons event events ih =>
      cases event with
      | opened name start => exact ih (depth + 1)
      | closed stop =>
          cases depth with
          | zero => rfl
          | succ depth => exact ih depth

theorem elementsOf_withReturns (events : List Event) :
    elementsOf (events.map Event.withReturns) =
      (elementsOf events).map Element.withReturns := by
  induction events with
  | nil => rfl
  | cons event events ih =>
      cases event with
      | opened name start =>
          simp only [List.map_cons, Event.withReturns, elementsOf,
            stopOf?_withReturns, ih, List.map_append, List.map_map]
          rfl
      | closed stop => exact ih

/-- The same elements, at the same places. -/
theorem elements?_withReturns {c : Cursor} (hc : '\r' ∉ c.rest) :
    elements? c.withReturns =
      (elements? c).map (List.map Element.withReturns) := by
  unfold elements?
  simp only [Option.bind_eq_bind]
  rw [readDocument_withReturns]
  refine map_bind_eq fun document hdocument => ?_
  rw [events?_withReturns (hasNoReturns_of_readDocument hc hdocument)]
  exact map_bind_eq fun events _ =>
    congrArg some (elementsOf_withReturns events)

end WebConfigAudit.Xml
