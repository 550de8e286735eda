import WebConfigAudit.Proofs.StretchReading
/-!
The readers of what stands around the root element go from stretch to stretch
too.  A document type leads through zones of its own, from its keyword to its
closing bracket, and the end of a document is back in the zone where it began.
-/

namespace WebConfigAudit.Xml

open Text (Cursor)

variable {zone : Zone} {c d : Cursor}

/-- The character that is known to come next. -/
theorem passes_next_of_startsWith {x : Char}
    (hbegins : startsWith [x] c = true) : c.Passes [x] c.next := by
  obtain ⟨rest, hrest⟩ := List.isPrefixOf_iff_prefix.mp hbegins
  exact Cursor.passes_next hrest.symm

/-- The word that is known to come next. -/
theorem passes_drop_of_startsWith {word : List Char}
    (hbegins : startsWith word c = true) : c.Passes word (c.drop word.length) :=
  Cursor.passes_of_expect? (if_pos hbegins)

/-! The declaration of the document, comments and instructions -/

section Around

theorem scans_of_skipPart {word : List Char}
    (hskip : skipPart word c = some d) : Scans .content c .content d := by
  unfold skipPart at hskip
  split at hskip
  · obtain ⟨⟨a, after⟩, ha, rfl⟩ := Option.map_eq_some_iff.mp hskip
    exact scans_of_readAttribute ha
  · cases hskip
    exact Scans.refl _ _

theorem scans_of_declarationGap? (hskip : declarationGap? c = some d) :
    Scans .content c .content d := by
  unfold declarationGap? at hskip
  split at hskip
  · cases hskip
    exact Scans.refl _ _
  · exact scans_of_spaces? .content hskip

/-- The declaration of a document is no instruction, so all of it is plain. -/
theorem scans_of_skipDeclaration (hbegins : startsWith "<?xml ".toList c = true)
    (hskip : skipDeclaration c = some d) : Scans .content c .content d := by
  have hlast {e : Cursor}
      (hrest : ((skipPart "standalone".toList e).bind fun c =>
        (skipSpaces c).expect? ['?', '>']) = some d) :
    Scans .content e .content d := by
    obtain ⟨afterPart, hpart, hclose⟩ := Option.bind_eq_some_iff.mp hrest
    exact ((scans_of_skipPart hpart).trans
      (scans_skipSpaces .content afterPart)).trans
      (scans_of_expect? rfl hclose)
  unfold skipDeclaration at hskip
  simp only [Option.bind_eq_bind, Option.bind_eq_some_iff] at hskip
  obtain ⟨afterOpening, hopening, afterSpaces, hspaces, hskip⟩ := hskip
  have hpasses := Cursor.passes_of_expect? hopening
  have hopens : Scans .content c .content afterOpening := by
    have hnone : Zone.content.enclosure? c.rest = none := by
      rw [Zone.enclosure?, if_pos]
      exact List.any_eq_true.mpr ⟨_, List.mem_singleton_self _, hbegins⟩
    rw [hpasses.rest] at hnone
    exact Scans.of_markup hpasses hnone rfl rfl
  have hopened := hopens.trans (scans_of_spaces? .content hspaces)
  split at hskip
  · simp only [Option.bind_eq_some_iff] at hskip
    obtain ⟨afterVersion, hversion, afterGap, hgap, hskip⟩ := hskip
    have hversioned := (hopened.trans (scans_of_skipPart hversion)).trans
      (scans_of_declarationGap? hgap)
    split at hskip
    · obtain ⟨afterEncoding, hencoding, hrest⟩ :=
        Option.bind_eq_some_iff.mp hskip
      obtain ⟨afterPart, hpart, hgap⟩ := Option.bind_eq_some_iff.mp hencoding
      have hencoded :=
        (scans_of_skipPart hpart).trans (scans_of_declarationGap? hgap)
      exact (hversioned.trans hencoded).trans (hlast hrest)
    · exact hversioned.trans (hlast hskip)
  · contradiction

theorem scans_of_skipMiscFrom {fuel : Nat}
    (hskip : skipMiscFrom fuel c = some d) : Scans .content c .content d := by
  induction fuel generalizing c with
  | zero =>
      cases hskip
      exact Scans.refl _ _
  | succ fuel ih =>
      unfold skipMiscFrom at hskip
      have hspaces := scans_skipSpaces .content c
      dsimp only at hskip
      split at hskip
      · obtain ⟨after, hafter, hrest⟩ := Option.bind_eq_some_iff.mp hskip
        exact (hspaces.trans (scans_of_skipComment .content hafter)).trans
          (ih hrest)
      · split at hskip
        · obtain ⟨after, hafter, hrest⟩ := Option.bind_eq_some_iff.mp hskip
          exact (hspaces.trans
            (scans_of_skipInstruction (Or.inl rfl) hafter)).trans (ih hrest)
        · cases hskip
          exact hspaces

theorem scans_of_skipMisc (hskip : skipMisc c = some d) :
    Scans .content c .content d :=
  scans_of_skipMiscFrom hskip

end Around

/-! The document type, where quote marks enclose -/

section DocumentType

/-- The zones in which quote marks enclose. -/
def Zone.Quotes (zone : Zone) : Prop :=
  zone = .documentType ∨ zone = .entity

theorem Zone.Quotes.enclosure? {mark : Char} (hzone : zone.Quotes)
    (hmark : mark = '"' ∨ mark = '\'') (rest : List Char) :
    zone.enclosure? (mark :: rest) = some (.quoted mark) := by
  rcases hzone with rfl | rfl
  all_goals
    rcases hmark with rfl | rfl
    · rfl
    · rfl

theorem not_mem_run (x : Char) (c : Cursor) : x ∉ c.run (· ≠ x) := by
  intro hmem
  have hother := Cursor.of_mem_run hmem
  simp at hother

theorem scans_of_readQuoted {value : Cursor} (hzone : zone.Quotes)
    (hread : readQuoted c = some (value, d)) : Scans zone c zone d := by
  have hreads : (StretchKind.quoted).Reads c d := ⟨value, hread⟩
  simp only [readQuoted, Option.bind_eq_bind, Option.bind_eq_some_iff,
    Prod.exists] at hread
  obtain ⟨mark, opened, hmark, after, hclose, ⟨⟩⟩ := hread
  obtain ⟨hopening, hquotes⟩ := passes_of_readQuoteMark hmark
  have hclosing :=
    (opened.passes_skip (· ≠ mark)).trans (passes_of_char? hclose)
  have hopens : zone.enclosure? c.rest = some (.quoted mark) := by
    rw [hopening.rest]
    exact hzone.enclosure? hquotes _
  have hinside := Text.before?_singleton (not_mem_run mark opened) d.rest
  rw [← hclosing.rest] at hinside
  exact Scans.of_enclosure hopens hopening hinside hclosing hreads

theorem scans_of_skipQuotedAfterSpaces (hzone : zone.Quotes)
    (hskip : skipQuotedAfterSpaces c = some d) : Scans zone c zone d := by
  simp only [skipQuotedAfterSpaces, Option.bind_eq_bind,
    Option.bind_eq_some_iff, Prod.exists] at hskip
  obtain ⟨afterSpaces, hspaces, value, after, hquoted, ⟨⟩⟩ := hskip
  exact (scans_of_spaces? zone hspaces).trans
    (scans_of_readQuoted hzone hquoted)

/-- A keyword is plain in every zone. -/
theorem scans_drop_of_startsWith {word : List Char} (zone : Zone)
    (hplain : word.all (fun x => !isStructural x) = true)
    (hbegins : startsWith word c = true) :
    Scans zone c zone (c.drop word.length) := by
  refine Scans.of_not_structural zone (passes_drop_of_startsWith hbegins)
    fun x hx => ?_
  simpa using List.all_eq_true.mp hplain x hx

theorem scans_of_skipExternal (hzone : zone.Quotes)
    (hskip : skipExternal c = some d) : Scans zone c zone d := by
  unfold skipExternal at hskip
  split at hskip
  · next hkeyword =>
      have hsystem := scans_drop_of_startsWith zone rfl hkeyword
      exact hsystem.trans (scans_of_skipQuotedAfterSpaces hzone hskip)
  · split at hskip
    · next hkeyword =>
        obtain ⟨after, hfirst, hsecond⟩ := Option.bind_eq_some_iff.mp hskip
        have hpublic := scans_drop_of_startsWith zone rfl hkeyword
        exact (hpublic.trans
          (scans_of_skipQuotedAfterSpaces hzone hfirst)).trans
          (scans_of_skipQuotedAfterSpaces hzone hsecond)
    · contradiction

theorem scans_of_skipNotation (zone : Zone) (hskip : skipNotation c = some d) :
    Scans zone c zone d := by
  unfold skipNotation at hskip
  split at hskip
  · next hkeyword =>
      simp only [Option.bind_eq_bind, Option.bind_eq_some_iff, Prod.exists]
        at hskip
      obtain ⟨afterSpaces, hspaces, name, after, hname, ⟨⟩⟩ := hskip
      have hpassed := (scans_skipSpaces zone c).trans
        (scans_drop_of_startsWith zone rfl hkeyword)
      exact (hpassed.trans (scans_of_spaces? zone hspaces)).trans
        (scans_of_readName zone hname)
  · cases hskip
    exact Scans.refl _ _

/-- The declaration of an entity ends with a bracket, which leads back to the
other declarations. -/
theorem scans_of_readEntityFrom {isParameter : Bool} {entity? : Option Entity}
    (hread : readEntityFrom isParameter c = some (entity?, d)) :
    Scans .entity c .declarations d := by
  have hquotes : Zone.entity.Quotes := Or.inr rfl
  have hlast {found : Option Entity} {e : Cursor}
      (hrest : ((char? '>' (skipSpaces e)).bind fun c => pure (found, c)) =
        some (entity?, d)) :
      Scans .entity e .declarations d := by
    obtain ⟨after, hclose, ⟨⟩⟩ := Option.bind_eq_some_iff.mp hrest
    exact (scans_skipSpaces .entity e).trans
      (Scans.of_markup (passes_of_char? hclose) rfl rfl rfl)
  unfold readEntityFrom at hread
  simp only [Option.bind_eq_bind, Option.bind_eq_some_iff, Prod.exists] at hread
  obtain ⟨name, afterName, hname, afterSpaces, hspaces, hread⟩ := hread
  have hnamed :=
    (scans_of_readName .entity hname).trans (scans_of_spaces? .entity hspaces)
  split at hread
  · next value afterValue hvalue =>
      exact (hnamed.trans (scans_of_readQuoted hquotes hvalue)).trans
        (hlast hread)
  · obtain ⟨afterExternal, hexternal, hread⟩ := Option.bind_eq_some_iff.mp hread
    have hreferred := hnamed.trans (scans_of_skipExternal hquotes hexternal)
    split at hread
    · exact hreferred.trans (hlast hread)
    · obtain ⟨afterNotation, hnotation, hread⟩ :=
        Option.bind_eq_some_iff.mp hread
      exact (hreferred.trans (scans_of_skipNotation .entity hnotation)).trans
        (hlast hread)

theorem scans_of_readEntity {entity? : Option Entity}
    (hread : readEntity c = some (entity?, d)) :
    Scans .declarations c .declarations d := by
  rw [readEntity_eq] at hread
  simp only [Option.bind_eq_bind, Option.bind_eq_some_iff] at hread
  obtain ⟨afterOpening, hopening, afterSpaces, hspaces, hread⟩ := hread
  have hopens : Scans .declarations c .entity afterOpening :=
    Scans.of_markup (Cursor.passes_of_expect? hopening) rfl rfl rfl
  have hopened := hopens.trans (scans_of_spaces? .entity hspaces)
  split at hread
  · next hparameter =>
      obtain ⟨afterSign, hsign, hread⟩ := Option.bind_eq_some_iff.mp hread
      have hpercent : Scans .entity afterSpaces .entity afterSpaces.next :=
        Scans.of_not_structural .entity (passes_next_of_startsWith hparameter)
          (List.forall_mem_singleton.mpr rfl)
      exact ((hopened.trans hpercent).trans
        (scans_of_spaces? .entity hsign)).trans
        (scans_of_readEntityFrom hread)
  · exact hopened.trans (scans_of_readEntityFrom hread)

/-- Any other declaration is enclosed by its brackets. -/
theorem scans_of_skipOther (hskip : skipOther c = some d) :
    Scans .declarations c .declarations d := by
  have hreads : Enclosure.declaration.kind.Reads c d := hskip
  unfold skipOther at hskip
  split at hskip
  · next hkeyword =>
      have hpasses := (c.passes_skip (· ≠ '>')).trans (passes_of_char? hskip)
      have hopens : Zone.declarations.enclosure? c.rest = some .declaration ∧
          ∃ inside, c.run (· ≠ '>') = ['<', '!'] ++ inside := by
        rw [Bool.or_eq_true, Bool.or_eq_true] at hkeyword
        rcases hkeyword with (hword | hword) | hword
        all_goals
          obtain ⟨rest, hrest⟩ := List.isPrefixOf_iff_prefix.mp hword
          rw [Cursor.run, ← hrest]
          exact ⟨rfl, _, rfl⟩
      obtain ⟨hopens, inside, hrun⟩ := hopens
      have hmark : '>' ∉ inside := by
        intro hmem
        exact not_mem_run '>' c (hrun ▸ List.mem_append_right _ hmem)
      rw [hrun, List.append_assoc] at hpasses
      obtain ⟨opened, hopening, hclosing⟩ := hpasses.split
      have hinside := Text.before?_singleton hmark d.rest
      rw [← hclosing.rest] at hinside
      exact Scans.of_enclosure hopens hopening hinside hclosing hreads
  · contradiction

theorem scans_of_readDeclarations {fuel : Nat} {entities : List Entity}
    (hread : readDeclarations fuel c = some (entities, d)) :
    Scans .declarations c .content d := by
  induction fuel generalizing c entities with
  | zero => contradiction
  | succ fuel ih =>
      unfold readDeclarations at hread
      dsimp only at hread
      refine (scans_skipSpaces .declarations c).trans ?_
      split at hread
      · simp only [Option.bind_eq_bind, Option.bind_eq_some_iff, Prod.exists]
          at hread
        obtain ⟨entity?, afterEntity, hentity, others, after, hothers, ⟨⟩⟩ :=
          hread
        exact (scans_of_readEntity hentity).trans (ih hothers)
      · split at hread
        · obtain ⟨after, hcomment, hrest⟩ := Option.bind_eq_some_iff.mp hread
          exact (scans_of_skipComment .declarations hcomment).trans (ih hrest)
        · split at hread
          · obtain ⟨after, hinstruction, hrest⟩ :=
              Option.bind_eq_some_iff.mp hread
            exact (scans_of_skipInstruction (Or.inr rfl) hinstruction).trans
              (ih hrest)
          · split at hread
            · next hbracket =>
                obtain ⟨after, hclose, ⟨⟩⟩ := Option.bind_eq_some_iff.mp hread
                have hopened :
                    Scans .declarations (skipSpaces c) .documentType
                      (skipSpaces c).next :=
                  Scans.of_markup (passes_next_of_startsWith hbracket)
                    rfl rfl rfl
                exact (hopened.trans (scans_skipSpaces .documentType _)).trans
                  (Scans.of_markup (passes_of_char? hclose) rfl rfl rfl)
            · obtain ⟨after, hother, hrest⟩ := Option.bind_eq_some_iff.mp hread
              exact (scans_of_skipOther hother).trans (ih hrest)

theorem scans_of_readDocumentType {entities : List Entity}
    (hread : readDocumentType c = some (entities, d)) :
    Scans .content c .content d := by
  have hquotes : Zone.documentType.Quotes := Or.inl rfl
  have hlast {e : Cursor}
      (hrest : (if startsWith ['['] (skipSpaces e) then
          readDeclarations ((skipSpaces e).rest.length + 1) (skipSpaces e).next
        else (char? '>' (skipSpaces e)).map fun c =>
          ([], c)) = some (entities, d)) :
      Scans .documentType e .content d := by
    refine (scans_skipSpaces .documentType e).trans ?_
    split at hrest
    · next hbracket =>
        have hopened : Scans .documentType (skipSpaces e) .declarations
            (skipSpaces e).next :=
          Scans.of_markup (passes_next_of_startsWith hbracket) rfl rfl rfl
        exact hopened.trans (scans_of_readDeclarations hrest)
    · obtain ⟨after, hclose, ⟨⟩⟩ := Option.map_eq_some_iff.mp hrest
      exact Scans.of_markup (passes_of_char? hclose) rfl rfl rfl
  unfold readDocumentType at hread
  simp only [Option.bind_eq_bind, Option.bind_eq_some_iff, Prod.exists] at hread
  obtain ⟨afterOpening, hopening, afterSpaces, hspaces, name, afterName, hname,
      hread⟩ := hread
  have hopens : Scans .content c .documentType afterOpening :=
    Scans.of_markup (Cursor.passes_of_expect? hopening) rfl rfl rfl
  have hnamed := ((hopens.trans (scans_of_spaces? .documentType hspaces)).trans
    (scans_of_readName .documentType hname)).trans
      (scans_skipSpaces .documentType afterName)
  split at hread
  · obtain ⟨afterExternal, hexternal, hrest⟩ := Option.bind_eq_some_iff.mp hread
    exact (hnamed.trans (scans_of_skipExternal hquotes hexternal)).trans
      (hlast hrest)
  · exact hnamed.trans (hlast hread)

end DocumentType

/-! The document -/

section Whole

theorem scans_of_readAfterDeclaration {document : Document}
    (hread : readAfterDeclaration c = some document) :
    ∃ d, Scans .content c .content d ∧ d.rest = [] := by
  have hroot {entities : List Entity} {e : Cursor}
      (hce : Scans .content c .content e)
      (hrest : ((readElement e).bind fun x => (skipMisc x.2).bind fun c =>
        if c.rest.isEmpty then some (Document.mk entities x.1)
        else none) = some document) :
      ∃ d, Scans .content c .content d ∧ d.rest = [] := by
    obtain ⟨⟨pieces, afterRoot⟩, hpieces, hrest⟩ :=
      Option.bind_eq_some_iff.mp hrest
    obtain ⟨afterMisc, hmisc, hrest⟩ := Option.bind_eq_some_iff.mp hrest
    split at hrest
    · next hend =>
        exact ⟨afterMisc,
          (hce.trans (scans_of_readElement hpieces)).trans
            (scans_of_skipMisc hmisc), List.isEmpty_iff.mp hend⟩
    · contradiction
  unfold readAfterDeclaration at hread
  simp only [Option.bind_eq_bind, Option.bind_eq_some_iff] at hread
  obtain ⟨afterMisc, hmisc, hread⟩ := hread
  have hscans := scans_of_skipMisc hmisc
  split at hread
  · obtain ⟨⟨entities, afterType⟩, htype, hread⟩ :=
      Option.bind_eq_some_iff.mp hread
    obtain ⟨afterTypeMisc, htypeMisc, hread⟩ := Option.bind_eq_some_iff.mp hread
    exact hroot ((hscans.trans (scans_of_readDocumentType htype)).trans
      (scans_of_skipMisc htypeMisc)) hread
  · exact hroot hscans hread

theorem scans_of_readDocument {document : Document}
    (hread : readDocument c = some document) :
    ∃ d, Scans .content c .content d ∧ d.rest = [] := by
  have hmark : Scans .content c .content
      (if startsWith [byteOrderMark] c then c.next else c) := by
    split
    · next hbegins =>
        exact Scans.of_not_structural .content
          (passes_next_of_startsWith hbegins)
          (List.forall_mem_singleton.mpr rfl)
    · exact Scans.refl _ c
  rw [readDocument_eq] at hread
  dsimp only at hread
  generalize (if startsWith [byteOrderMark] c then c.next else c) = afterMark
    at hmark hread
  split at hread
  · next hbegins =>
      obtain ⟨afterDeclaration, hdeclaration, hread⟩ :=
        Option.bind_eq_some_iff.mp hread
      obtain ⟨d, hscans, hend⟩ := scans_of_readAfterDeclaration hread
      exact ⟨d, (hmark.trans
        (scans_of_skipDeclaration hbegins hdeclaration)).trans hscans, hend⟩
  · obtain ⟨d, hscans, hend⟩ := scans_of_readAfterDeclaration hread
    exact ⟨d, hmark.trans hscans, hend⟩

/-- The stretches that a scan of a document finds are those that its readers go
through. -/
theorem exists_follows_of_readDocument {document : Document}
    (hread : readDocument c = some document) :
    ∃ d, Follows .content c (stretches c.rest) .content d ∧ d.rest = [] := by
  obtain ⟨d, ⟨list, hfollows⟩, hend⟩ := scans_of_readDocument hread
  have hsame := hfollows.stretchesFrom_eq hend (Nat.le_refl _)
  exact ⟨d, by rwa [stretches, hsame], hend⟩

end Whole

end WebConfigAudit.Xml
