import Mathlib.Logic.Relation
import WebConfigAudit.FileTree.Edit
import WebConfigAudit.Proofs.PathsBelow
/-!
The paths above a path.  The path without its last step makes all the others,
from the same start, and its text has no slash at its end, so that it is handed
to the system as it is.
-/

namespace WebConfigAudit

namespace Path

/-- The path is the other one, without some of its last steps. -/
def IsAbove (above p : Path) : Prop :=
  Relation.TransGen (fun p above => p.parent? = some above) p above

/-- The pieces that make a step. -/
def stepPieces (p : Path) : List (List Char) :=
  p.pieces.filter fun piece => !isIdle piece

/-- The path ends without a slash, if it is not the root itself. -/
def IsNeat (p : Path) : Prop :=
  p.text.toList = ['/'] ∨ p.text.toList.getLast? ≠ some '/'

section Parents

variable {p above : Path} {front : List Char} {body pieces : List (List Char)}
  {piece : List Char}

theorem stepPieces_eq_nil (hempty : p.text.toList = []) :
    p.stepPieces = [] := by
  rw [stepPieces, Path.pieces, hempty]
  rfl

theorem isIdle_getLast_dropIdleEnd
    (hlast : (dropIdleEnd pieces).getLast? = some piece) :
    isIdle piece = false := by
  rw [dropIdleEnd, List.getLast?_reverse] at hlast
  have hhead := List.head?_dropWhile_not isIdle pieces.reverse
  rw [hlast] at hhead
  simpa using hhead

theorem getLast?_append_joinPieces (cs : List Char) (pieces : List (List Char))
    (hpiece : piece ≠ []) :
    (cs ++ joinPieces (pieces ++ [piece])).getLast? = piece.getLast? := by
  have hends : ∃ ds, cs ++ joinPieces (pieces ++ [piece]) = ds ++ piece := by
    by_cases hpieces : pieces = []
    · subst hpieces
      exact ⟨cs, rfl⟩
    · refine ⟨cs ++ (joinPieces pieces ++ ['/']), ?_⟩
      rw [joinPieces_append hpieces (List.cons_ne_nil _ _), joinPieces]
      simp
  obtain ⟨ds, hds⟩ := hends
  rw [hds, List.getLast?_append, List.getLast?_eq_some_getLast hpiece,
    Option.some_or]

/-- What is above a path is its front and the pieces before its last step,
without what makes no step at their end. -/
theorem IsWritten.parent?_eq_some (hp : p.IsWritten front body)
    (hparent : p.parent? = some above) (hne : above.text.toList ≠ []) :
    ∃ others piece idles, body = others ++ piece :: idles ∧
      isIdle piece = false ∧
      (∀ piece ∈ idles, isIdle piece = true) ∧
      above = ofFrontAndBody front (dropIdleEnd others) := by
  obtain ⟨idles, hidles, hbody⟩ := exists_dropIdleEnd_append body
  rw [parent?, hp.frontAndBody_eq] at hparent
  dsimp only at hparent
  split at hparent
  · next piece others hreverse =>
      have hkept : dropIdleEnd body = others.reverse ++ [piece] := by
        rw [← List.reverse_reverse (dropIdleEnd body), hreverse,
          List.reverse_cons]
      refine ⟨others.reverse, piece, idles, ?_, ?_, hidles,
        (Option.some.inj hparent).symm⟩
      · rw [hkept, List.append_assoc, List.singleton_append] at hbody
        exact hbody
      · exact isIdle_getLast_dropIdleEnd (by rw [hkept, List.getLast?_concat])
  · split at hparent
    · cases hparent
      exact absurd rfl hne
    · cases hparent

theorem IsWritten.isNeat_initial (hp : p.IsWritten front body)
    {others : List (List Char)} (hstarts : others <+: body) :
    (ofFrontAndBody front (dropIdleEnd others)).IsNeat := by
  rw [IsNeat, toList_ofFrontAndBody]
  rcases List.eq_nil_or_concat (dropIdleEnd others) with
    hnil | ⟨initial, piece, hkept⟩
  · rw [if_pos hnil]
    cases hp with
    | absolute rest htext => exact Or.inl rfl
    | here others hrelative hcut => exact Or.inr (by decide)
    | plain hrelative hhere => exact Or.inr nofun
  · rw [List.concat_eq_append] at hkept
    have hpiece : piece ≠ [] := by
      rintro rfl
      have hlast : (dropIdleEnd others).getLast? = some [] := by
        rw [hkept, List.getLast?_concat]
      have hidle := isIdle_getLast_dropIdleEnd hlast
      cases hidle
    have hslash : '/' ∉ piece := by
      refine hp.not_mem (hstarts.subset ((prefix_dropIdleEnd others).subset ?_))
      rw [hkept]
      exact List.mem_append_right _ List.mem_cons_self
    have hlast : piece.getLast? ≠ some '/' := fun hlast =>
      hslash (List.mem_of_getLast? hlast)
    rw [hkept, if_neg (by simp)]
    refine Or.inr ?_
    split
    · rwa [show ∀ cs, '.' :: '/' :: cs = ['.', '/'] ++ cs from fun _ => rfl,
        getLast?_append_joinPieces _ _ hpiece]
    · rwa [getLast?_append_joinPieces _ _ hpiece]

/-- The path above a path makes its steps but for the last one, from the same
start. -/
theorem exists_last_step (hparent : p.parent? = some above)
    (hne : above.text.toList ≠ []) :
    above.isAbsolute = p.isAbsolute ∧
      ∃ before piece idles, p.pieces = before ++ piece :: idles ∧
      isIdle piece = false ∧
        before.filter (fun piece => !isIdle piece) = above.stepPieces := by
  obtain ⟨front, body, hp⟩ := p.exists_isWritten
  obtain ⟨others, piece, idles, hbody, hstep, hidles, rfl⟩ :=
    hp.parent?_eq_some hparent hne
  have hstarts : dropIdleEnd others <+: body :=
    (prefix_dropIdleEnd others).trans ⟨piece :: idles, hbody.symm⟩
  have habove := hp.initial hstarts fun hfront hnil => hne (by
    rw [toList_ofFrontAndBody, if_pos hnil, hfront])
  refine ⟨habove.isAbsolute_eq.trans hp.isAbsolute_eq.symm,
    (if front = ['.'] then [['.']] else []) ++ others, piece, idles, ?_,
    hstep, ?_⟩
  · rw [hp.pieces_eq, hbody, List.append_assoc]
  · rw [stepPieces, habove.pieces_eq, List.filter_append, List.filter_append]
    congr 1
    split
    · next hroot =>
        rw [← filter_dropIdleEnd others, hroot.2]
        rfl
    · exact (filter_dropIdleEnd others).symm

theorem prefix_stepPieces_of_parent? (hparent : p.parent? = some above) :
    above.stepPieces <+: p.stepPieces := by
  by_cases hne : above.text.toList = []
  · rw [stepPieces_eq_nil hne]
    exact List.nil_prefix
  · obtain ⟨_, before, piece, idles, hpieces, _, hbefore⟩ :=
      exists_last_step hparent hne
    rw [← hbefore, stepPieces, hpieces, List.filter_append]
    exact List.prefix_append _ _

theorem isNeat_of_parent? (hparent : p.parent? = some above) :
    above.IsNeat := by
  by_cases hne : above.text.toList = []
  · rw [IsNeat, hne]
    exact Or.inr nofun
  · obtain ⟨front, body, hp⟩ := p.exists_isWritten
    obtain ⟨others, piece, idles, hbody, _, _, rfl⟩ :=
      hp.parent?_eq_some hparent hne
    exact hp.isNeat_initial ⟨piece :: idles, hbody.symm⟩

/-- A directory is made at a path as it is written. -/
theorem IsNeat.withoutSlashes (hneat : p.IsNeat) :
    (if (FileAction.withoutSlashes p).text.isEmpty then p
      else FileAction.withoutSlashes p) =
      p := by
  rcases hneat with hroot | hlast
  · rw [if_pos]
    rw [FileAction.withoutSlashes, hroot]
    rfl
  · have hsame : FileAction.withoutSlashes p = p := by
      have hdrop : p.text.toList.reverse.dropWhile (· == '/') =
          p.text.toList.reverse := by
        rw [← List.head?_reverse] at hlast
        cases hbackwards : p.text.toList.reverse with
        | nil => rfl
        | cons c rest =>
            rw [hbackwards, List.head?_cons] at hlast
            exact List.dropWhile_cons_of_neg (by simpa using hlast)
      rw [FileAction.withoutSlashes, hdrop, List.reverse_reverse,
        String.ofList_toList]
    rw [hsame]
    split <;> rfl

end Parents

end Path

end WebConfigAudit
