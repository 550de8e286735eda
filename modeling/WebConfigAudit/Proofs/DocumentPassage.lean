import WebConfigAudit.Proofs.MarkupPassage
import WebConfigAudit.Xml.Element
/-!
Where the parts of a document come from.  The values of entities and the pieces
of the root element stand in the text of the document, and every element that
opens does so at a start tag of that text.
-/

namespace WebConfigAudit.Xml

open Text (Cursor Position)

variable {c d : Cursor}

theorem reaches_of_spaces? (hread : spaces? c = some d) : c.Reaches d := by
  obtain ⟨blanks, hpasses, _⟩ := passes_of_spaces? hread
  exact hpasses.reaches

theorem reaches_of_declarationGap? (hskip : declarationGap? c = some d) :
    c.Reaches d := by
  unfold declarationGap? at hskip
  split at hskip
  · cases hskip
    exact Cursor.Reaches.refl _
  · exact reaches_of_spaces? hskip

theorem reaches_of_skipPart {word : List Char}
    (hskip : skipPart word c = some d) : c.Reaches d := by
  unfold skipPart at hskip
  split at hskip
  · obtain ⟨⟨a, after⟩, ha, rfl⟩ := Option.map_eq_some_iff.mp hskip
    exact reaches_of_readAttribute ha
  · cases hskip
    exact Cursor.Reaches.refl _

theorem reaches_of_skipDeclaration (hskip : skipDeclaration c = some d) :
    c.Reaches d := by
  have hlast {e : Cursor}
      (hrest : ((skipPart "standalone".toList e).bind fun c =>
        (skipSpaces c).expect? ['?', '>']) = some d) : e.Reaches d := by
    obtain ⟨afterPart, hpart, hclose⟩ := Option.bind_eq_some_iff.mp hrest
    exact ((reaches_of_skipPart hpart).trans
      (reaches_skipSpaces afterPart)).trans
      (Cursor.passes_of_expect? hclose).reaches
  unfold skipDeclaration at hskip
  simp only [Option.bind_eq_bind, Option.bind_eq_some_iff] at hskip
  obtain ⟨afterOpening, hopening, afterSpaces, hspaces, hskip⟩ := hskip
  have hopened :=
    (Cursor.passes_of_expect? hopening).reaches.trans
      (reaches_of_spaces? hspaces)
  split at hskip
  · simp only [Option.bind_eq_some_iff] at hskip
    obtain ⟨afterVersion, hversion, afterGap, hgap, hskip⟩ := hskip
    have hversioned := (hopened.trans (reaches_of_skipPart hversion)).trans
      (reaches_of_declarationGap? hgap)
    split at hskip
    · obtain ⟨afterEncoding, hencoding, hrest⟩ :=
        Option.bind_eq_some_iff.mp hskip
      obtain ⟨afterPart, hpart, hgap⟩ := Option.bind_eq_some_iff.mp hencoding
      have hencoded :=
        (reaches_of_skipPart hpart).trans (reaches_of_declarationGap? hgap)
      exact (hversioned.trans hencoded).trans (hlast hrest)
    · exact hversioned.trans (hlast hskip)
  · contradiction

theorem reaches_of_skipMiscFrom {fuel : Nat}
    (hskip : skipMiscFrom fuel c = some d) : c.Reaches d := by
  induction fuel generalizing c with
  | zero =>
      cases hskip
      exact Cursor.Reaches.refl _
  | succ fuel ih =>
      unfold skipMiscFrom at hskip
      have hspaces := reaches_skipSpaces c
      dsimp only at hskip
      split at hskip
      · obtain ⟨after, hafter, hrest⟩ := Option.bind_eq_some_iff.mp hskip
        exact (hspaces.trans (reaches_of_skipComment hafter)).trans (ih hrest)
      · split at hskip
        · obtain ⟨after, hafter, hrest⟩ := Option.bind_eq_some_iff.mp hskip
          exact (hspaces.trans (reaches_of_skipInstruction hafter)).trans
            (ih hrest)
        · cases hskip
          exact hspaces

theorem reaches_of_skipMisc (hskip : skipMisc c = some d) : c.Reaches d :=
  reaches_of_skipMiscFrom hskip

theorem reaches_of_skipQuotedAfterSpaces
    (hskip : skipQuotedAfterSpaces c = some d) : c.Reaches d := by
  simp only [skipQuotedAfterSpaces, Option.bind_eq_bind,
    Option.bind_eq_some_iff, Prod.exists] at hskip
  obtain ⟨afterSpaces, hspaces, value, after, hquoted, ⟨⟩⟩ := hskip
  exact (reaches_of_spaces? hspaces).trans (of_readQuoted hquoted).1

theorem reaches_of_skipExternal (hskip : skipExternal c = some d) :
    c.Reaches d := by
  have hkeyword := c.reaches_drop 6
  unfold skipExternal at hskip
  split at hskip
  · exact hkeyword.trans (reaches_of_skipQuotedAfterSpaces hskip)
  · split at hskip
    · obtain ⟨after, hfirst, hsecond⟩ := Option.bind_eq_some_iff.mp hskip
      exact (hkeyword.trans (reaches_of_skipQuotedAfterSpaces hfirst)).trans
        (reaches_of_skipQuotedAfterSpaces hsecond)
    · contradiction

theorem reaches_of_skipNotation (hskip : skipNotation c = some d) :
    c.Reaches d := by
  unfold skipNotation at hskip
  split at hskip
  · simp only [Option.bind_eq_bind, Option.bind_eq_some_iff, Prod.exists]
      at hskip
    obtain ⟨afterSpaces, hspaces, name, after, hname, ⟨⟩⟩ := hskip
    have hkeyword :=
      (reaches_skipSpaces c).trans ((skipSpaces c).reaches_drop 5)
    exact (hkeyword.trans (reaches_of_spaces? hspaces)).trans
      (reaches_of_readName hname)
  · cases hskip
    exact Cursor.Reaches.refl _

/-- The declaration of an entity from its name on. -/
def readEntityFrom (isParameter : Bool) : Reader (Option Entity) := fun c => do
  let (name, c) ← readName c
  let c ← spaces? c
  let (entity, c) ←
    match readQuoted c with
    | some (value, c) => some (some (Entity.mk name value), c)
    | none => do
        let c ← skipExternal c
        let c ← if isParameter then some c else skipNotation c
        pure (none, c)
  let c ← char? '>' (skipSpaces c)
  return (entity, c)

theorem readEntity_eq (c : Cursor) :
    readEntity c = (do
      let c ← c.expect? "<!ENTITY".toList
      let c ← spaces? c
      let isParameter := startsWith ['%'] c
      if isParameter then (spaces? c.next).bind (readEntityFrom isParameter)
      else readEntityFrom isParameter c) :=
  rfl

/-- The second cursor is reached from the first, and the values of the entities
declared on the way stand in the text of the first. -/
structure Declares (c d : Cursor) (entities : List Entity) : Prop where
  reaches : c.Reaches d
  contains : ∀ entity ∈ entities, c.Contains entity.value

theorem Declares.nothing (hcd : c.Reaches d) : Declares c d [] := ⟨hcd, by simp⟩

theorem Declares.of_reaches {e : Cursor} {entities : List Entity}
    (hce : c.Reaches e) (hrest : Declares e d entities) :
    Declares c d entities where
  reaches := hce.trans hrest.reaches
  contains entity hentity := hce.contains.trans (hrest.contains entity hentity)

theorem Declares.append {e : Cursor} {entities others : List Entity}
    (hfirst : Declares c e entities) (hrest : Declares e d others) :
    Declares c d (entities ++ others) where
  reaches := hfirst.reaches.trans hrest.reaches
  contains entity hentity := by
    rcases List.mem_append.mp hentity with hmem | hmem
    · exact hfirst.contains entity hmem
    · exact hfirst.reaches.contains.trans (hrest.contains entity hmem)

theorem declares_of_readEntityFrom {isParameter : Bool}
    {entity? : Option Entity}
    (hread : readEntityFrom isParameter c = some (entity?, d)) :
    Declares c d entity?.toList := by
  have hlast {found : Option Entity} {e : Cursor}
      (hrest : ((char? '>' (skipSpaces e)).bind fun c => pure (found, c)) =
        some (entity?, d)) :
      e.Reaches d ∧ found = entity? := by
    obtain ⟨after, hclose, ⟨⟩⟩ := Option.bind_eq_some_iff.mp hrest
    exact ⟨(reaches_skipSpaces e).trans (passes_of_char? hclose).reaches, rfl⟩
  unfold readEntityFrom at hread
  simp only [Option.bind_eq_bind, Option.bind_eq_some_iff, Prod.exists] at hread
  obtain ⟨name, afterName, hname, afterSpaces, hspaces, hread⟩ := hread
  have hnamed := (reaches_of_readName hname).trans (reaches_of_spaces? hspaces)
  split at hread
  · next value afterValue hvalue =>
      obtain ⟨hreaches, hcontains⟩ := of_readQuoted hvalue
      obtain ⟨hend, rfl⟩ := hlast hread
      refine Declares.of_reaches hnamed ⟨hreaches.trans hend, ?_⟩
      exact List.forall_mem_singleton.mpr hcontains
  · obtain ⟨afterExternal, hexternal, hread⟩ := Option.bind_eq_some_iff.mp hread
    have hreaches := hnamed.trans (reaches_of_skipExternal hexternal)
    split at hread
    · obtain ⟨hend, rfl⟩ := hlast hread
      exact Declares.nothing (hreaches.trans hend)
    · obtain ⟨afterNotation, hnotation, hread⟩ :=
        Option.bind_eq_some_iff.mp hread
      obtain ⟨hend, rfl⟩ := hlast hread
      exact Declares.nothing
        ((hreaches.trans (reaches_of_skipNotation hnotation)).trans hend)

theorem declares_of_readEntity {entity? : Option Entity}
    (hread : readEntity c = some (entity?, d)) :
    Declares c d entity?.toList := by
  rw [readEntity_eq] at hread
  simp only [Option.bind_eq_bind, Option.bind_eq_some_iff] at hread
  obtain ⟨afterOpening, hopening, afterSpaces, hspaces, hread⟩ := hread
  have hopened :=
    (Cursor.passes_of_expect? hopening).reaches.trans
      (reaches_of_spaces? hspaces)
  split at hread
  · obtain ⟨afterSign, hsign, hread⟩ := Option.bind_eq_some_iff.mp hread
    have hsigned :=
      (hopened.trans afterSpaces.reaches_next).trans (reaches_of_spaces? hsign)
    exact Declares.of_reaches hsigned (declares_of_readEntityFrom hread)
  · exact Declares.of_reaches hopened (declares_of_readEntityFrom hread)

theorem reaches_of_skipOther (hskip : skipOther c = some d) : c.Reaches d := by
  unfold skipOther at hskip
  split at hskip
  · exact (c.reaches_skip _).trans (passes_of_char? hskip).reaches
  · contradiction

theorem declares_of_readDeclarations {fuel : Nat} {entities : List Entity}
    (hread : readDeclarations fuel c = some (entities, d)) :
    Declares c d entities := by
  induction fuel generalizing c entities with
  | zero => contradiction
  | succ fuel ih =>
      unfold readDeclarations at hread
      dsimp only at hread
      refine Declares.of_reaches (reaches_skipSpaces c) ?_
      split at hread
      · simp only [Option.bind_eq_bind, Option.bind_eq_some_iff, Prod.exists]
          at hread
        obtain ⟨entity?, afterEntity, hentity, others, after, hothers, ⟨⟩⟩ :=
          hread
        exact Declares.append (declares_of_readEntity hentity) (ih hothers)
      · split at hread
        · obtain ⟨after, hcomment, hrest⟩ := Option.bind_eq_some_iff.mp hread
          exact Declares.of_reaches (reaches_of_skipComment hcomment) (ih hrest)
        · split at hread
          · obtain ⟨after, hinstruction, hrest⟩ :=
              Option.bind_eq_some_iff.mp hread
            exact Declares.of_reaches (reaches_of_skipInstruction hinstruction)
              (ih hrest)
          · split at hread
            · obtain ⟨after, hclose, ⟨⟩⟩ := Option.bind_eq_some_iff.mp hread
              exact Declares.nothing
                (((Cursor.reaches_next _).trans (reaches_skipSpaces _)).trans
                  (passes_of_char? hclose).reaches)
            · obtain ⟨after, hother, hrest⟩ := Option.bind_eq_some_iff.mp hread
              exact Declares.of_reaches (reaches_of_skipOther hother) (ih hrest)

theorem declares_of_readDocumentType {entities : List Entity}
    (hread : readDocumentType c = some (entities, d)) :
    Declares c d entities := by
  have hlast {e : Cursor}
      (hrest : (if startsWith ['['] (skipSpaces e) then
          readDeclarations ((skipSpaces e).rest.length + 1) (skipSpaces e).next
        else (char? '>' (skipSpaces e)).map fun c =>
          ([], c)) = some (entities, d)) :
      Declares e d entities := by
    refine Declares.of_reaches (reaches_skipSpaces e) ?_
    split at hrest
    · exact Declares.of_reaches (Cursor.reaches_next _)
        (declares_of_readDeclarations hrest)
    · obtain ⟨after, hclose, ⟨⟩⟩ := Option.map_eq_some_iff.mp hrest
      exact Declares.nothing (passes_of_char? hclose).reaches
  unfold readDocumentType at hread
  simp only [Option.bind_eq_bind, Option.bind_eq_some_iff, Prod.exists] at hread
  obtain ⟨afterOpening, hopening, afterSpaces, hspaces, name, afterName, hname,
      hread⟩ := hread
  have hopened :=
    (Cursor.passes_of_expect? hopening).reaches.trans
      (reaches_of_spaces? hspaces)
  have hnamed :=
    (hopened.trans (reaches_of_readName hname)).trans
      (reaches_skipSpaces afterName)
  split at hread
  · obtain ⟨afterExternal, hexternal, hrest⟩ := Option.bind_eq_some_iff.mp hread
    exact Declares.of_reaches (hnamed.trans (reaches_of_skipExternal hexternal))
      (hlast hrest)
  · exact Declares.of_reaches hnamed (hlast hread)

/-- A document whose entities and pieces stand in a text. -/
structure Document.IsWithin (c : Cursor) (document : Document) : Prop where
  entities : ∀ entity ∈ document.entities, c.Contains entity.value
  pieces : ∀ piece ∈ document.pieces, piece.IsWithin c

/-- What stands from the end of the declaration on. -/
def readAfterDeclaration (c : Cursor) : Option Document := do
  let c ← skipMisc c
  let (entities, c) ←
    if startsWith "<!DOCTYPE".toList c then do
      let (entities, c) ← readDocumentType c
      let c ← skipMisc c
      pure (entities, c)
    else some ([], c)
  let (pieces, c) ← readElement c
  let c ← skipMisc c
  if c.rest.isEmpty then some ⟨entities, pieces⟩ else none

theorem readDocument_eq (text : Cursor) :
    readDocument text = (
      let c := if startsWith [byteOrderMark] text then text.next else text
      if startsWith "<?xml ".toList c then
        (skipDeclaration c).bind readAfterDeclaration
      else readAfterDeclaration c) :=
  rfl

/-- A document is read from one place of its text on, and its entities are
declared before. -/
structure Document.IsReadFrom (c root : Cursor) (document : Document) :
    Prop where
  reaches : c.Reaches root
  entities : ∀ entity ∈ document.entities, c.Contains entity.value
  pieces : ∃ after, readElement root = some (document.pieces, after)

variable {root : Cursor}

theorem Document.IsReadFrom.of_reaches {document : Document} (hcd : c.Reaches d)
    (hdocument : document.IsReadFrom d root) : document.IsReadFrom c root where
  reaches := hcd.trans hdocument.reaches
  entities entity hentity :=
    hcd.contains.trans (hdocument.entities entity hentity)
  pieces := hdocument.pieces

theorem Document.exists_root_of_readAfterDeclaration {document : Document}
    (hread : readAfterDeclaration c = some document) :
    ∃ root, document.IsReadFrom c root := by
  have hroot {entities : List Entity} {root : Cursor}
      (hreaches : c.Reaches root)
      (hentities : ∀ entity ∈ entities, c.Contains entity.value)
      (hrest : ((readElement root).bind fun x => (skipMisc x.2).bind fun c =>
        if c.rest.isEmpty then some (Document.mk entities x.1)
        else none) = some document) :
      document.IsReadFrom c root := by
    obtain ⟨⟨pieces, afterRoot⟩, hpieces, hrest⟩ :=
      Option.bind_eq_some_iff.mp hrest
    obtain ⟨afterMisc, _, hrest⟩ := Option.bind_eq_some_iff.mp hrest
    split at hrest
    · cases hrest
      exact ⟨hreaches, hentities, afterRoot, hpieces⟩
    · contradiction
  unfold readAfterDeclaration at hread
  simp only [Option.bind_eq_bind, Option.bind_eq_some_iff] at hread
  obtain ⟨afterMisc, hmisc, hread⟩ := hread
  have hreaches := reaches_of_skipMisc hmisc
  split at hread
  · obtain ⟨⟨entities, afterType⟩, htype, hread⟩ :=
      Option.bind_eq_some_iff.mp hread
    obtain ⟨afterTypeMisc, htypeMisc, hread⟩ := Option.bind_eq_some_iff.mp hread
    have hdeclares :=
      Declares.of_reaches hreaches (declares_of_readDocumentType htype)
    exact ⟨afterTypeMisc,
      hroot (hdeclares.reaches.trans (reaches_of_skipMisc htypeMisc))
        hdeclares.contains hread⟩
  · exact ⟨afterMisc, hroot hreaches (by simp) hread⟩

/-- The pieces of a document are read from a place of its text on. -/
theorem Document.exists_root_of_readDocument {document : Document}
    (hread : readDocument c = some document) :
    ∃ root, document.IsReadFrom c root := by
  have hmark :
      c.Reaches (if startsWith [byteOrderMark] c then c.next else c) := by
    split
    · exact c.reaches_next
    · exact Cursor.Reaches.refl c
  rw [readDocument_eq] at hread
  dsimp only at hread
  generalize (if startsWith [byteOrderMark] c then c.next else c) = afterMark
    at hmark hread
  split at hread
  · obtain ⟨afterDeclaration, hdeclaration, hread⟩ :=
      Option.bind_eq_some_iff.mp hread
    obtain ⟨root, hroot⟩ := exists_root_of_readAfterDeclaration hread
    exact ⟨root,
      hroot.of_reaches (hmark.trans (reaches_of_skipDeclaration hdeclaration))⟩
  · obtain ⟨root, hroot⟩ := exists_root_of_readAfterDeclaration hread
    exact ⟨root, hroot.of_reaches hmark⟩

theorem Document.isWithin_of_readDocument {document : Document}
    (hread : readDocument c = some document) : document.IsWithin c := by
  obtain ⟨root, hroot⟩ := exists_root_of_readDocument hread
  obtain ⟨after, hpieces⟩ := hroot.pieces
  exact ⟨hroot.entities, fun piece hpiece =>
    ((readsPieces_of_readElement hpieces).within piece hpiece).of_contains
      hroot.reaches.contains⟩

end WebConfigAudit.Xml
