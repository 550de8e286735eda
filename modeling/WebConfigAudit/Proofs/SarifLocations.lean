import WebConfigAudit.Proofs.PathsBelow
import WebConfigAudit.Report.Sarif
/-!
Where the interchange format says that files lie.  A file under the scanned
directory goes by its steps from there, with a slash for every backslash.  So it
can be told by its location, and found from there, as long as no name on the way
has a backslash.
-/

namespace WebConfigAudit

namespace Path

/-- The path makes all the steps of the base, and then more. -/
structure IsUnder (path base : Path) : Prop where
  starts : base.components <+: path.components
  goes_on : path.components ≠ base.components

/-- The steps of a path after those of the base. -/
def stepsUnder (path base : Path) : List Component :=
  path.components.drop base.components.length

/-- Some name after the steps of the base has a backslash in it. -/
def HasBackslashUnder (path base : Path) : Prop :=
  ∃ name, Component.name name ∈ path.stepsUnder base ∧ '\\' ∈ name.toList

section Characters

variable {cs : List Char} {c : Char}

theorem mem_iff_exists_piece (hc : c ≠ '/') :
    c ∈ cs ↔ ∃ piece ∈ cutAtSlashes cs, c ∈ piece := by
  induction cs with
  | nil => simp [cutAtSlashes]
  | cons d cs ih =>
      by_cases hd : d = '/'
      · subst hd
        simp [cutAtSlashes_slash, ih, hc]
      · obtain ⟨piece, pieces, hpieces, hcut⟩ := cutAtSlashes_cons hd cs
        simp [hcut, hpieces, ih, or_assoc]

/-- A character that neither divides a path nor makes up an idle step is in a
name. -/
theorem exists_name_iff (hslash : c ≠ '/') (hdot : c ≠ '.') :
    (∃ name, Component.name name ∈ stepsOf cs ∧ c ∈ name.toList) ↔ c ∈ cs := by
  rw [mem_iff_exists_piece hslash]
  constructor
  · rintro ⟨name, hname, hc⟩
    obtain ⟨piece, hpiece, hsame⟩ := List.mem_map.mp hname
    rw [componentOf] at hsame
    split at hsame
    · contradiction
    · obtain rfl := Component.name.inj hsame
      rw [String.toList_ofList] at hc
      exact ⟨piece, (List.mem_filter.mp hpiece).1, hc⟩
  · rintro ⟨piece, hpiece, hc⟩
    have hstep : isIdle piece = false := by
      rw [isIdle, Bool.or_eq_false_iff, beq_eq_false_iff_ne,
        beq_eq_false_iff_ne]
      constructor
      · rintro rfl
        contradiction
      · rintro rfl
        exact hdot (List.mem_singleton.mp hc)
    have hname : componentOf piece = .name (String.ofList piece) := by
      refine if_neg ?_
      rintro rfl
      simp [hdot] at hc
    refine ⟨String.ofList piece, ?_, by rwa [String.toList_ofList]⟩
    rw [← hname]
    exact List.mem_map_of_mem (List.mem_filter.mpr ⟨hpiece, by simp [hstep]⟩)

end Characters

section Strip

variable {path base : Path}

theorem filter_dropSteps (n : Nat) (pieces : List (List Char)) :
    (dropSteps n pieces).filter (fun piece => !isIdle piece) =
      (pieces.filter fun piece => !isIdle piece).drop n := by
  fun_induction dropSteps n pieces with
  | case1 pieces => rfl
  | case2 n => simp
  | case3 n piece pieces hidle ih =>
      rw [ih, List.filter_cons_of_neg (by simp [hidle])]
  | case4 n piece pieces hstep ih =>
      rw [ih, List.filter_cons_of_pos (by simpa using hstep),
        List.drop_succ_cons]

theorem dropSteps_suffix (n : Nat) (pieces : List (List Char)) :
    dropSteps n pieces <:+ pieces := by
  fun_induction dropSteps n pieces with
  | case1 pieces => exact List.suffix_rfl
  | case2 n => exact List.suffix_rfl
  | case3 n piece pieces hidle ih =>
      exact ih.trans (List.suffix_cons piece pieces)
  | case4 n piece pieces hstep ih =>
      exact ih.trans (List.suffix_cons piece pieces)

theorem filter_dropWhile_isIdle (pieces : List (List Char)) :
    (pieces.dropWhile isIdle).filter (fun piece => !isIdle piece) =
      pieces.filter fun piece => !isIdle piece := by
  induction pieces with
  | nil => rfl
  | cons piece pieces ih =>
      cases hidle : isIdle piece with
      | true =>
          rw [List.dropWhile_cons_of_pos hidle, ih,
            List.filter_cons_of_neg (by simp [hidle])]
      | false => rw [List.dropWhile_cons_of_neg (by simp [hidle])]

/-- Pieces of which the first makes a step do not start with a slash when they
are joined. -/
theorem head?_joinPieces_ne {piece : List Char} {pieces : List (List Char)}
    (hstep : isIdle piece = false) (hslash : '/' ∉ piece) :
    (joinPieces (piece :: pieces)).head? ≠ some '/' := by
  cases piece with
  | nil => contradiction
  | cons c piece =>
      have hc : c ≠ '/' := fun heq => hslash (heq ▸ List.mem_cons_self)
      cases pieces with
      | nil => simpa [joinPieces] using hc
      | cons next pieces => simpa [joinPieces] using hc

theorem IsUnder.stepsUnder_ne_nil (hunder : path.IsUnder base) :
    path.stepsUnder base ≠ [] := by
  intro hnil
  obtain ⟨more, hmore⟩ := hunder.starts
  rw [stepsUnder, ← hmore, List.drop_left] at hnil
  rw [hnil, List.append_nil] at hmore
  exact hunder.goes_on hmore.symm

theorem IsUnder.components_eq (hunder : path.IsUnder base) :
    path.components = base.components ++ path.stepsUnder base :=
  List.prefix_iff_eq_append.mp hunder.starts |>.symm

theorem filter_remaining (n : Nat) (body : List (List Char)) :
    (remaining n body).filter (fun piece => !isIdle piece) =
      (body.filter fun piece => !isIdle piece).drop n := by
  rw [remaining, filter_dropIdleEnd, filter_dropWhile_isIdle, filter_dropSteps]

theorem mem_of_mem_remaining {n : Nat} {body : List (List Char)}
    {piece : List Char} (hpiece : piece ∈ remaining n body) : piece ∈ body :=
  (dropSteps_suffix n body).mem
    ((List.dropWhile_suffix isIdle).mem ((prefix_dropIdleEnd _).subset hpiece))

/-- What is left begins with a piece that makes a step. -/
theorem isIdle_head_of_remaining {n : Nat} {body others : List (List Char)}
    {piece : List Char} (hleft : remaining n body = piece :: others) :
    isIdle piece = false := by
  obtain ⟨idles, _, hsplit⟩ :=
    exists_dropIdleEnd_append ((dropSteps n body).dropWhile isIdle)
  have hhead := List.head?_dropWhile_not isIdle (dropSteps n body)
  rw [hsplit, show dropIdleEnd _ = _ from hleft] at hhead
  simpa using hhead

/-- What is left of a path under the base makes the rest of its steps, from
where it is continued. -/
theorem IsUnder.exists_stripBase? (hunder : path.IsUnder base)
    (hne : base.text.toList ≠ []) :
    ∃ rest, path.stripBase? base = some rest ∧
      stepsOf rest.text.toList = path.stepsUnder base ∧
      rest.text.toList.head? ≠ some '/' := by
  obtain ⟨front, body, hp⟩ := path.exists_isWritten
  have hsteps := components_ne_nil hne
  have hstrip := hp.stripBase?_eq hunder.starts hsteps
  -- the step of the front, if there is one, is a step of the base
  have hfront : (frontSteps front).length ≤ base.components.length := by
    have hpos := List.length_pos_iff.mpr hsteps
    rw [hp.length_frontSteps]
    split <;> omega
  generalize hkept :
    remaining (base.components.length - (frontSteps front).length) body = kept
    at hstrip
  have hmade : (kept.filter fun piece => !isIdle piece).map componentOf =
      path.stepsUnder base := by
    rw [← hkept, filter_remaining, List.map_drop, stepsUnder, hp.components_eq,
      List.drop_append, List.drop_eq_nil_of_le hfront, List.nil_append]
  have hslash : ∀ piece ∈ kept, '/' ∉ piece := fun piece hpiece =>
    hp.not_mem (mem_of_mem_remaining (hkept ▸ hpiece))
  have hsome : kept ≠ [] := by
    intro hnil
    rw [hnil] at hmade
    exact hunder.stepsUnder_ne_nil hmade.symm
  have htext : (ofFrontAndBody [] kept).text.toList = joinPieces kept := by
    rw [toList_ofFrontAndBody, if_neg hsome, if_neg (by decide),
      List.nil_append]
  refine ⟨_, hstrip, ?_, ?_⟩
  · rw [htext, stepsOf, cutAtSlashes_joinPieces hsome hslash, hmade]
  · obtain ⟨piece, others, hcons⟩ := List.exists_cons_of_ne_nil hsome
    rw [htext, hcons]
    exact head?_joinPieces_ne (isIdle_head_of_remaining (hkept.trans hcons))
      (hslash piece (by simp [hcons]))

end Strip

end Path

section Locations

variable {file : String} {base : Path}

theorem toList_slashed (s : String) :
    (slashed s).toList = s.toList.map fun c => if c = '\\' then '/' else c := by
  rw [slashed, String.toList_ofList]

theorem backslash_not_mem_slashed (s : String) : '\\' ∉ (slashed s).toList := by
  rw [toList_slashed, List.mem_map]
  rintro ⟨c, _, hc⟩
  split at hc
  · contradiction
  · next hother => exact hother hc

theorem slashed_of_not_mem {s : String} (hnone : '\\' ∉ s.toList) :
    slashed s = s := by
  rw [← String.toList_inj, toList_slashed]
  refine (List.map_congr_left fun c hc => if_neg ?_).trans (List.map_id' _)
  rintro rfl
  exact hnone hc

/-- The location of a file under a base is the text of the rest of its steps,
with slashes only. -/
theorem exists_relativeUri_eq (hunder : (⟨file⟩ : Path).IsUnder base)
    (hne : base.text ≠ "") :
    ∃ rest : String, relativeUri file base = slashed rest ∧
      Path.stepsOf rest.toList = (⟨file⟩ : Path).stepsUnder base ∧
      rest.toList.head? ≠ some '/' := by
  have htext : base.text.toList ≠ [] := by simpa using hne
  obtain ⟨rest, hstrip, hsteps, hhead⟩ := hunder.exists_stripBase? htext
  have hother : (⟨file⟩ : Path).same base = false := by
    rw [Path.same, beq_eq_false_iff_ne]
    exact hunder.goes_on
  refine ⟨rest.text, ?_, hsteps, hhead⟩
  simp only [relativeUri, if_neg hne, hother, hstrip,
    Bool.false_eq_true, if_false]

theorem hasBackslashUnder_iff {rest : String}
    (hsteps : Path.stepsOf rest.toList = (⟨file⟩ : Path).stepsUnder base) :
    (⟨file⟩ : Path).HasBackslashUnder base ↔ '\\' ∈ rest.toList := by
  rw [Path.HasBackslashUnder, ← hsteps]
  exact Path.exists_name_iff (by decide) (by decide)

theorem backslash_not_mem_of_mem_stepsOf {cs : List Char} (hnone : '\\' ∉ cs)
    {name : String} (hname : Component.name name ∈ Path.stepsOf cs) :
    '\\' ∉ name.toList :=
  fun hc =>
  hnone ((Path.exists_name_iff (by decide) (by decide)).mp ⟨name, hname, hc⟩)

/-- A text without a backslash adds none to the names of a path that is
continued with it: the path starts over at the root, or it goes on from its
steps. -/
theorem backslash_not_mem_drop_join {uri name : String}
    (hne : base.text.toList ≠ []) (hnone : '\\' ∉ uri.toList)
    (hname : Component.name name ∈
      (base.join uri).components.drop base.components.length) :
    '\\' ∉ name.toList := by
  by_cases hslash : uri.toList.head? = some '/'
  · obtain ⟨rest, hrest⟩ := List.head?_eq_some_iff.mp hslash
    have hjoin : base.join uri = ⟨uri⟩ := if_pos hslash
    rw [hjoin, (Path.IsWritten.absolute rest hrest).components_eq] at hname
    have hmem : Component.name name ∈ Path.stepsOf rest := by
      rcases List.mem_append.mp (List.mem_of_mem_drop hname) with hroot | hmem
      · exact absurd (List.mem_singleton.mp hroot) (by simp)
      · exact hmem
    rw [hrest, List.mem_cons, not_or] at hnone
    exact backslash_not_mem_of_mem_stepsOf hnone.2 hmem
  · rw [Path.components_join_relative hne hslash, List.drop_left] at hname
    exact backslash_not_mem_of_mem_stepsOf hnone hname

theorem join_of_empty (hempty : base.text = "") (s : String) :
    base.join s = ⟨s⟩ := by
  unfold Path.join
  split
  · rfl
  · rw [if_pos (Or.inl (by rw [hempty, String.toList_empty])), hempty,
      String.empty_append]

/-- From the base, the location of a file leads to the file as long as the names
on the way have no backslash. -/
theorem components_join_relativeUri_iff
    (hunder : (⟨file⟩ : Path).IsUnder base) :
    (base.join (relativeUri file base)).components =
        (⟨file⟩ : Path).components ↔
      base.text = "" ∨ ¬ (⟨file⟩ : Path).HasBackslashUnder base := by
  by_cases hempty : base.text = ""
  · have huri : relativeUri file base = file := if_pos hempty
    rw [huri, join_of_empty hempty]
    simp [hempty]
  · have hne : base.text.toList ≠ [] := by simpa using hempty
    obtain ⟨rest, huri, hsteps, hhead⟩ := exists_relativeUri_eq hunder hempty
    rw [huri]
    constructor
    · intro hback
      refine Or.inr ?_
      rintro ⟨name, hname, hc⟩
      rw [Path.stepsUnder, ← hback] at hname
      exact backslash_not_mem_drop_join hne
        (backslash_not_mem_slashed rest) hname hc
    · intro hnone
      have hclean : '\\' ∉ rest.toList := fun hc =>
        (hnone.resolve_left hempty) ((hasBackslashUnder_iff hsteps).mpr hc)
      rw [slashed_of_not_mem hclean,
        Path.components_join_relative hne hhead, hsteps, ← hunder.components_eq]

/-- Every file under a base is found from there by its location, and no other
file under the base has that location, unless the base is not empty and some
name on the way to one of the two has a backslash. From a base that is not
empty, the location is the text of the rest of the steps, with a slash for every
backslash. -/
theorem locations_tell_files_apart_without_backslash
    (hunder : (⟨file⟩ : Path).IsUnder base) :
    ((base.join (relativeUri file base)).components =
        (⟨file⟩ : Path).components ↔
      base.text = "" ∨ ¬ (⟨file⟩ : Path).HasBackslashUnder base) ∧
    (∀ other : String, (⟨other⟩ : Path).IsUnder base →
      (⟨file⟩ : Path).components ≠ (⟨other⟩ : Path).components →
      base.text = "" ∨ ¬ (⟨file⟩ : Path).HasBackslashUnder base ∧
        ¬ (⟨other⟩ : Path).HasBackslashUnder base →
      relativeUri file base ≠ relativeUri other base) ∧
    (base.text ≠ "" → ∃ rest : String,
      Path.stepsOf rest.toList = (⟨file⟩ : Path).stepsUnder base ∧
      relativeUri file base = slashed rest) := by
  refine ⟨components_join_relativeUri_iff hunder, ?_, ?_⟩
  · intro other hother hdiffer hclean huri
    have hfile :=
      (components_join_relativeUri_iff hunder).mpr (hclean.imp_right And.left)
    have hback :=
      (components_join_relativeUri_iff hother).mpr (hclean.imp_right And.right)
    rw [huri] at hfile
    exact hdiffer (hfile.symm.trans hback)
  · intro hne
    obtain ⟨rest, huri, hsteps, _⟩ := exists_relativeUri_eq hunder hne
    exact ⟨rest, hsteps, huri⟩

namespace LocationsWitness

def repo : Path := ⟨"/repo"⟩

/-- A file in a directory `b` that lies in a directory `a`. -/
def nested : String := "/repo/a/b/Web.config"

/-- A file in one directory, whose name has a backslash between the two
letters. -/
def flat : String := "/repo/a\\b/Web.config"

/-- A sibling of the first file. -/
def debug : String := "/repo/a/b/Web.Debug.config"

theorem nested_isUnder : (⟨nested⟩ : Path).IsUnder repo :=
  ⟨by decide +kernel, by decide +kernel⟩
theorem flat_isUnder : (⟨flat⟩ : Path).IsUnder repo :=
  ⟨by decide +kernel, by decide +kernel⟩
theorem debug_isUnder : (⟨debug⟩ : Path).IsUnder repo :=
  ⟨by decide +kernel, by decide +kernel⟩

theorem flat_hasBackslashUnder : (⟨flat⟩ : Path).HasBackslashUnder repo :=
  ⟨"a\\b", by decide +kernel, by decide +kernel⟩

/-- Two files that differ in their steps have one location, which leads to only
one of them. -/
theorem two_files_share_a_location :
    (⟨nested⟩ : Path).IsUnder repo ∧ (⟨flat⟩ : Path).IsUnder repo ∧
      (⟨nested⟩ : Path).components ≠ (⟨flat⟩ : Path).components ∧
      relativeUri nested repo = relativeUri flat repo ∧
      (repo.join (relativeUri flat repo)).components ≠
        (⟨flat⟩ : Path).components :=
  ⟨nested_isUnder, flat_isUnder, by decide +kernel, by decide +kernel,
    by decide +kernel⟩

/-- Without a backslash, two files are told apart and found again; with one, the
file is not. -/
theorem backslash_decides :
    relativeUri nested repo ≠ relativeUri debug repo ∧
      (repo.join (relativeUri nested repo)).components =
        (⟨nested⟩ : Path).components ∧
      (repo.join (relativeUri flat repo)).components ≠
        (⟨flat⟩ : Path).components := by
  have hroundNested : (repo.join (relativeUri nested repo)).components =
      (⟨nested⟩ : Path).components := by decide +kernel
  have hroundDebug : (repo.join (relativeUri debug repo)).components =
      (⟨debug⟩ : Path).components := by decide +kernel
  have hrepo : repo.text ≠ "" := by decide +kernel
  obtain ⟨hnested, happart, _⟩ :=
    locations_tell_files_apart_without_backslash nested_isUnder
  obtain ⟨hdebug, _, _⟩ :=
    locations_tell_files_apart_without_backslash debug_isUnder
  obtain ⟨hflat, _, _⟩ :=
    locations_tell_files_apart_without_backslash flat_isUnder
  refine ⟨happart debug debug_isUnder (by decide +kernel) (Or.inr ?_),
    hroundNested, ?_⟩
  · exact ⟨(hnested.mp hroundNested).resolve_left hrepo,
      (hdebug.mp hroundDebug).resolve_left hrepo⟩
  · exact fun hback => (hflat.mp hback).elim hrepo fun hnone =>
      hnone flat_hasBackslashUnder

end LocationsWitness

end Locations

end WebConfigAudit
