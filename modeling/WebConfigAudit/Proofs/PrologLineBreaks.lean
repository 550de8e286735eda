import WebConfigAudit.Proofs.DocumentPassage
import WebConfigAudit.Proofs.MarkupLineBreaks
/-!
Documents with a carriage return before every line feed.  What stands around the
root element is passed over at the same places, and the same entities are
declared on the way.
-/

namespace WebConfigAudit.Xml

open Text (Cursor HasNoBreak)

variable {c d : Cursor}

/-- The entity in the text with carriage returns. -/
def Entity.withReturns (entity : Entity) : Entity :=
  { entity with value := entity.value.withReturns }

/-- The document in the text with carriage returns. -/
def Document.withReturns (document : Document) : Document where
  entities := document.entities.map Entity.withReturns
  pieces := document.pieces.map Piece.withReturns

theorem keepsPlace_declarationGap? : KeepsPlace declarationGap? := by
  intro c
  unfold declarationGap?
  rw [startsWith_withReturns (by decide), Cursor.withReturns_rest,
    Text.isEmpty_withReturns]
  split
  · rfl
  · exact keepsPlace_spaces? c

theorem keepsPlace_skipPart {word : List Char} (hword : HasNoBreak word) :
    KeepsPlace (skipPart word) := by
  intro c
  unfold skipPart
  rw [startsWith_withReturns hword]
  split
  · rw [keeps_readAttribute, Option.map_map, Option.map_map]
    rfl
  · rfl

theorem KeepsPlace.bind {skip next : Cursor → Option Cursor}
    (hskip : KeepsPlace skip) (hnext : KeepsPlace next) :
    KeepsPlace fun c => (skip c).bind next := by
  intro c
  dsimp only
  rw [hskip]
  exact map_bind_eq fun after _ => hnext after

theorem keepsPlace_skipDeclaration : KeepsPlace skipDeclaration := by
  have hclose : KeepsPlace fun c => (skipSpaces c).expect? ['?', '>'] := by
    intro c
    dsimp only
    rw [skipSpaces_withReturns, Cursor.expect?_withReturns (by decide)]
  have hstandalone : HasNoBreak "standalone".toList := by decide
  have hlast := (keepsPlace_skipPart hstandalone).bind hclose
  intro c
  unfold skipDeclaration
  simp only [Option.bind_eq_bind]
  rw [Cursor.expect?_withReturns (by decide)]
  refine map_bind_eq fun afterOpening _ => ?_
  rw [keepsPlace_spaces?]
  refine map_bind_eq fun afterSpaces _ => ?_
  rw [startsWith_withReturns (by decide)]
  split
  · rw [keepsPlace_skipPart (by decide)]
    refine map_bind_eq fun afterVersion _ => ?_
    rw [keepsPlace_declarationGap?]
    refine map_bind_eq fun afterGap _ => ?_
    rw [startsWith_withReturns (by decide)]
    split
    · have hencoding : HasNoBreak "encoding".toList := by decide
      exact (((keepsPlace_skipPart hencoding).bind
        keepsPlace_declarationGap?).bind hlast) afterGap
    · exact hlast afterGap
  · rfl

theorem skipMiscFrom_withReturns {fuel fuel' : Nat}
    (hfuel : c.rest.length < fuel)
    (hfuel' : c.withReturns.rest.length < fuel') :
    skipMiscFrom fuel' c.withReturns =
      (skipMiscFrom fuel c).map Cursor.withReturns := by
  induction fuel generalizing c fuel' with
  | zero => omega
  | succ fuel ih =>
      obtain ⟨fuel', rfl⟩ :=
        Nat.exists_eq_succ_of_ne_zero (Nat.ne_zero_of_lt hfuel')
      unfold skipMiscFrom
      dsimp only
      rw [skipSpaces_withReturns, startsWith_withReturns (by decide),
        startsWith_withReturns (by decide)]
      have hspaces := reaches_skipSpaces c
      split
      · rw [keepsPlace_skipComment]
        refine map_bind_eq fun after hafter => ?_
        obtain ⟨hbound, hbound'⟩ :=
          (hspaces.trans_advances (advances_of_skipComment hafter)).bounds
            hfuel hfuel'
        exact ih hbound hbound'
      · split
        · rw [keepsPlace_skipInstruction]
          refine map_bind_eq fun after hafter => ?_
          obtain ⟨hbound, hbound'⟩ :=
            (hspaces.trans_advances (advances_of_skipInstruction hafter)).bounds
              hfuel hfuel'
          exact ih hbound hbound'
        · rfl

theorem keepsPlace_skipMisc : KeepsPlace skipMisc := fun _ =>
  skipMiscFrom_withReturns (Nat.lt_succ_self _) (Nat.lt_succ_self _)

theorem keepsPlace_skipQuotedAfterSpaces :
    KeepsPlace skipQuotedAfterSpaces := by
  intro c
  unfold skipQuotedAfterSpaces
  simp only [Option.bind_eq_bind]
  rw [keepsPlace_spaces?]
  refine map_bind_eq fun afterSpaces _ => ?_
  rw [keeps_readQuoted]
  exact map_bind_eq fun _ _ => rfl

/-- Passing over a word that is known to come next. -/
theorem drop_withReturns_of_startsWith {word : List Char}
    (hword : HasNoBreak word) (hbegins : startsWith word c = true) :
    c.withReturns.drop word.length = (c.drop word.length).withReturns :=
  Cursor.drop_withReturns hword hbegins

theorem keepsPlace_skipExternal : KeepsPlace skipExternal := by
  intro c
  unfold skipExternal
  rw [startsWith_withReturns (by decide), startsWith_withReturns (by decide)]
  split
  · next hsystem =>
      have hdrop := drop_withReturns_of_startsWith (by decide) hsystem
      rw [show ("SYSTEM".toList).length = 6 from rfl] at hdrop
      rw [hdrop, keepsPlace_skipQuotedAfterSpaces]
  · split
    · next hpublic =>
        have hdrop := drop_withReturns_of_startsWith (by decide) hpublic
        rw [show ("PUBLIC".toList).length = 6 from rfl] at hdrop
        rw [hdrop, keepsPlace_skipQuotedAfterSpaces]
        exact map_bind_eq fun after _ => keepsPlace_skipQuotedAfterSpaces after
    · rfl

theorem keepsPlace_skipNotation : KeepsPlace skipNotation := by
  intro c
  unfold skipNotation
  rw [skipSpaces_withReturns, startsWith_withReturns (by decide)]
  split
  · next hkeyword =>
      have hdrop := drop_withReturns_of_startsWith (by decide) hkeyword
      rw [show ("NDATA".toList).length = 5 from rfl] at hdrop
      simp only [Option.bind_eq_bind]
      rw [hdrop, keepsPlace_spaces?]
      refine map_bind_eq fun afterSpaces _ => ?_
      rw [keeps_readName]
      exact map_bind_eq fun _ _ => rfl
  · rfl

theorem keeps_readEntityFrom (isParameter : Bool) :
    Keeps (Option.map Entity.withReturns) (readEntityFrom isParameter) := by
  have hlast (found : Option Entity) (c : Cursor) :
      ((char? '>' (skipSpaces c.withReturns)).bind fun after =>
          some (found.map Entity.withReturns, after)) =
        ((char? '>' (skipSpaces c)).bind fun after => some (found, after)).map
          fun found =>
            (found.1.map Entity.withReturns, found.2.withReturns) := by
    rw [skipSpaces_withReturns, keepsPlace_char? (by decide)]
    exact map_bind_eq fun _ _ => rfl
  intro c
  unfold readEntityFrom
  simp only [Option.bind_eq_bind]
  rw [keeps_readName]
  refine map_bind_eq fun ⟨name, afterName⟩ _ => ?_
  dsimp only [id]
  rw [keepsPlace_spaces?]
  refine map_bind_eq fun afterSpaces _ => ?_
  rw [keeps_readQuoted]
  cases readQuoted afterSpaces with
  | some found => exact hlast (some ⟨name, found.1⟩) found.2
  | none =>
      dsimp only [Option.map_none]
      rw [keepsPlace_skipExternal]
      split
      · exact map_bind_eq fun after _ => hlast none after
      · refine map_bind_eq fun afterExternal _ => ?_
        rw [keepsPlace_skipNotation]
        exact map_bind_eq fun after _ => hlast none after

theorem keeps_readEntity :
    Keeps (Option.map Entity.withReturns) readEntity := by
  intro c
  rw [readEntity_eq, readEntity_eq]
  simp only [Option.bind_eq_bind]
  rw [Cursor.expect?_withReturns (by decide)]
  refine map_bind_eq fun afterOpening _ => ?_
  rw [keepsPlace_spaces?]
  refine map_bind_eq fun afterSpaces _ => ?_
  rw [startsWith_withReturns (by decide)]
  split
  · next hparameter =>
      obtain ⟨rest, hrest⟩ := List.isPrefixOf_iff_prefix.mp hparameter
      rw [Cursor.next_withReturns hrest.symm (by decide), keepsPlace_spaces?]
      exact map_bind_eq fun after _ => keeps_readEntityFrom _ after
  · exact keeps_readEntityFrom _ afterSpaces

theorem keepsPlace_skipOther : KeepsPlace skipOther := by
  intro c
  unfold skipOther
  rw [startsWith_withReturns (by decide), startsWith_withReturns (by decide),
    startsWith_withReturns (by decide)]
  split
  · rw [Cursor.skip_withReturns (by decide), keepsPlace_char? (by decide)]
  · rfl

theorem advances_of_readEntity {entity? : Option Entity}
    (hread : readEntity c = some (entity?, d)) : c.Advances d := by
  rw [readEntity_eq] at hread
  simp only [Option.bind_eq_bind, Option.bind_eq_some_iff] at hread
  obtain ⟨afterOpening, hopening, afterSpaces, hspaces, hread⟩ := hread
  have hopened := (advances_of_expect? hopening (by decide)).trans_reaches
    (reaches_of_spaces? hspaces)
  split at hread
  · obtain ⟨afterSign, hsign, hread⟩ := Option.bind_eq_some_iff.mp hread
    have hsigned :=
      (hopened.trans_reaches afterSpaces.reaches_next).trans_reaches
        (reaches_of_spaces? hsign)
    exact hsigned.trans_reaches (declares_of_readEntityFrom hread).reaches
  · exact hopened.trans_reaches (declares_of_readEntityFrom hread).reaches

theorem advances_of_skipOther (hskip : skipOther c = some d) :
    c.Advances d := by
  unfold skipOther at hskip
  split at hskip
  · exact (c.reaches_skip _).trans_advances (advances_of_char? hskip)
  · contradiction

theorem toList_map_withReturns (entity? : Option Entity) :
    (entity?.map Entity.withReturns).toList =
      entity?.toList.map Entity.withReturns := by
  cases entity? <;> rfl

theorem readDeclarations_withReturns {fuel fuel' : Nat}
    (hfuel : c.rest.length < fuel)
    (hfuel' : c.withReturns.rest.length < fuel') :
    readDeclarations fuel' c.withReturns =
      (readDeclarations fuel c).map fun found =>
        (found.1.map Entity.withReturns, found.2.withReturns) := by
  induction fuel generalizing c fuel' with
  | zero => omega
  | succ fuel ih =>
      obtain ⟨fuel', rfl⟩ :=
        Nat.exists_eq_succ_of_ne_zero (Nat.ne_zero_of_lt hfuel')
      have hgoesOn {after : Cursor} (hafter : (skipSpaces c).Advances after) :=
        ((reaches_skipSpaces c).trans_advances hafter).bounds hfuel hfuel'
      unfold readDeclarations
      simp only [Option.bind_eq_bind]
      rw [skipSpaces_withReturns, startsWith_withReturns (by decide),
        startsWith_withReturns (by decide), startsWith_withReturns (by decide),
        startsWith_withReturns (by decide)]
      split
      · rw [keeps_readEntity]
        refine map_bind_eq ?_
        rintro ⟨entity, afterEntity⟩ hentity
        obtain ⟨hbound, hbound'⟩ := hgoesOn (advances_of_readEntity hentity)
        dsimp only
        rw [ih hbound hbound']
        refine map_bind_eq ?_
        rintro ⟨entities, after⟩ _
        simp [toList_map_withReturns]
      · split
        · rw [keepsPlace_skipComment]
          refine map_bind_eq fun after hafter => ?_
          obtain ⟨hbound, hbound'⟩ := hgoesOn (advances_of_skipComment hafter)
          exact ih hbound hbound'
        · split
          · rw [keepsPlace_skipInstruction]
            refine map_bind_eq fun after hafter => ?_
            obtain ⟨hbound, hbound'⟩ :=
              hgoesOn (advances_of_skipInstruction hafter)
            exact ih hbound hbound'
          · split
            · next hbracket =>
                obtain ⟨rest, hrest⟩ := List.isPrefixOf_iff_prefix.mp hbracket
                rw [Cursor.next_withReturns hrest.symm (by decide),
                  skipSpaces_withReturns, keepsPlace_char? (by decide)]
                exact map_bind_eq fun _ _ => rfl
            · rw [keepsPlace_skipOther]
              refine map_bind_eq fun after hafter => ?_
              obtain ⟨hbound, hbound'⟩ := hgoesOn (advances_of_skipOther hafter)
              exact ih hbound hbound'

theorem keeps_readDocumentType :
    Keeps (List.map Entity.withReturns) readDocumentType := by
  have hlast (c : Cursor) :
      (if startsWith ['['] (skipSpaces c.withReturns) then
          readDeclarations ((skipSpaces c.withReturns).rest.length + 1)
            (skipSpaces c.withReturns).next
        else (char? '>' (skipSpaces c.withReturns)).map fun after =>
          ([], after)) =
        (if startsWith ['['] (skipSpaces c) then
          readDeclarations ((skipSpaces c).rest.length + 1) (skipSpaces c).next
        else (char? '>' (skipSpaces c)).map fun after =>
          ([], after)).map fun found =>
            (found.1.map Entity.withReturns, found.2.withReturns) := by
    rw [skipSpaces_withReturns, startsWith_withReturns (by decide)]
    split
    · next hbracket =>
        obtain ⟨rest, hrest⟩ := List.isPrefixOf_iff_prefix.mp hbracket
        have hnext := Cursor.next_withReturns hrest.symm (by decide)
        have hpasses :=
          (Cursor.passes_next hrest.symm).advances (List.cons_ne_nil _ _)
        have hlength := hpasses.length_lt
        have hlength' := hpasses.withReturns.length_lt
        rw [hnext]
        exact readDeclarations_withReturns (by omega) (by omega)
    · rw [keepsPlace_char? (by decide), Option.map_map, Option.map_map]
      rfl
  intro c
  unfold readDocumentType
  simp only [Option.bind_eq_bind]
  rw [Cursor.expect?_withReturns (by decide)]
  refine map_bind_eq fun afterOpening _ => ?_
  rw [keepsPlace_spaces?]
  refine map_bind_eq fun afterSpaces _ => ?_
  rw [keeps_readName]
  refine map_bind_eq fun ⟨name, afterName⟩ _ => ?_
  dsimp only
  rw [skipSpaces_withReturns, startsWith_withReturns (by decide),
    startsWith_withReturns (by decide)]
  split
  · rw [keepsPlace_skipExternal]
    exact map_bind_eq fun after _ => hlast after
  · exact hlast (skipSpaces afterName)

theorem readAfterDeclaration_withReturns (c : Cursor) :
    readAfterDeclaration c.withReturns =
      (readAfterDeclaration c).map Document.withReturns := by
  have hroot (entities : List Entity) (c : Cursor) :
      ((readElement c.withReturns).bind fun x =>
        (skipMisc x.2).bind fun after =>
          if after.rest.isEmpty then
            some (Document.mk (entities.map Entity.withReturns) x.1)
          else none) =
      ((readElement c).bind fun x => (skipMisc x.2).bind fun after =>
        if after.rest.isEmpty then some (Document.mk entities x.1)
        else none).map
          Document.withReturns := by
    rw [keeps_readElement]
    refine map_bind_eq fun ⟨pieces, afterRoot⟩ _ => ?_
    dsimp only
    rw [keepsPlace_skipMisc]
    refine map_bind_eq fun after _ => ?_
    rw [Cursor.withReturns_rest, Text.isEmpty_withReturns]
    split
    · rfl
    · rfl
  unfold readAfterDeclaration
  simp only [Option.bind_eq_bind]
  rw [keepsPlace_skipMisc]
  refine map_bind_eq fun afterMisc _ => ?_
  rw [startsWith_withReturns (by decide)]
  split
  · rw [keeps_readDocumentType]
    refine map_bind_eq fun ⟨entities, afterType⟩ _ => ?_
    dsimp only
    rw [keepsPlace_skipMisc]
    exact map_bind_eq fun after _ => hroot entities after
  · exact hroot [] afterMisc

/-- The document in the text with carriage returns, if the text is one. -/
theorem readDocument_withReturns (c : Cursor) :
    readDocument c.withReturns = (readDocument c).map Document.withReturns := by
  have hmark :
      (if startsWith [byteOrderMark] c.withReturns then c.withReturns.next
      else c.withReturns) =
    (if startsWith [byteOrderMark] c then c.next else c).withReturns := by
    rw [startsWith_withReturns (by decide)]
    split
    · next hbegins =>
        obtain ⟨rest, hrest⟩ := List.isPrefixOf_iff_prefix.mp hbegins
        exact Cursor.next_withReturns hrest.symm (by decide)
    · rfl
  rw [readDocument_eq, readDocument_eq]
  dsimp only
  rw [hmark]
  generalize (if startsWith [byteOrderMark] c then c.next else c) = afterMark
  rw [startsWith_withReturns (by decide)]
  split
  · rw [keepsPlace_skipDeclaration]
    exact map_bind_eq fun after _ => readAfterDeclaration_withReturns after
  · exact readAfterDeclaration_withReturns _

/-- No attribute value and no value of an entity has carriage returns. -/
structure Document.HasNoReturns (document : Document) : Prop where
  entities : ∀ entity ∈ document.entities, '\r' ∉ entity.value.rest
  pieces : ∀ piece ∈ document.pieces, piece.HasNoReturns

theorem hasNoReturns_of_readAfterDeclaration {document : Document}
    (hc : '\r' ∉ c.rest) (hread : readAfterDeclaration c = some document) :
    ∀ piece ∈ document.pieces, piece.HasNoReturns := by
  have hroot {entities : List Entity} {e : Cursor} (hce : c.Reaches e)
      (hrest : ((readElement e).bind fun x => (skipMisc x.2).bind fun c =>
        if c.rest.isEmpty then some (Document.mk entities x.1)
        else none) = some document) :
      ∀ piece ∈ document.pieces, piece.HasNoReturns := by
    obtain ⟨⟨pieces, afterRoot⟩, hpieces, hrest⟩ :=
      Option.bind_eq_some_iff.mp hrest
    obtain ⟨afterMisc, _, hrest⟩ := Option.bind_eq_some_iff.mp hrest
    split at hrest
    · cases hrest
      exact hasNoReturns_of_readElement (hce.contains.not_mem hc) hpieces
    · contradiction
  unfold readAfterDeclaration at hread
  simp only [Option.bind_eq_bind, Option.bind_eq_some_iff] at hread
  obtain ⟨afterMisc, hmisc, hread⟩ := hread
  have hreaches := reaches_of_skipMisc hmisc
  split at hread
  · obtain ⟨⟨entities, afterType⟩, htype, hread⟩ :=
      Option.bind_eq_some_iff.mp hread
    obtain ⟨afterTypeMisc, htypeMisc, hread⟩ := Option.bind_eq_some_iff.mp hread
    have htyped := hreaches.trans (declares_of_readDocumentType htype).reaches
    exact hroot (htyped.trans (reaches_of_skipMisc htypeMisc)) hread
  · exact hroot hreaches hread

theorem hasNoReturns_of_readDocument {document : Document} (hc : '\r' ∉ c.rest)
    (hread : readDocument c = some document) : document.HasNoReturns where
  entities entity hentity :=
    ((Document.isWithin_of_readDocument hread).entities entity
      hentity).not_mem hc
  pieces := by
    have hmark :
        c.Reaches (if startsWith [byteOrderMark] c then c.next else c) := by
      split
      · exact c.reaches_next
      · exact Cursor.Reaches.refl c
    rw [readDocument_eq] at hread
    dsimp only at hread
    generalize (if startsWith [byteOrderMark] c then c.next else c) = afterMark
      at hmark hread
    have hafterMark := hmark.contains.not_mem hc
    split at hread
    · obtain ⟨afterDeclaration, hdeclaration, hread⟩ :=
        Option.bind_eq_some_iff.mp hread
      have hdeclared :=
        (reaches_of_skipDeclaration hdeclaration).contains.not_mem hafterMark
      exact hasNoReturns_of_readAfterDeclaration hdeclared hread
    · exact hasNoReturns_of_readAfterDeclaration hafterMark hread

end WebConfigAudit.Xml
