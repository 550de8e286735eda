import Mathlib.Data.List.TakeWhile
import WebConfigAudit.FileTree.Basic
/-!
The pieces of paths.  A path is a front and a body of pieces; continuing it by a
name puts one piece behind the body, and the path above that is the path again,
without what makes no step at its end.
-/

namespace WebConfigAudit

/-- What an item can be called: a short text that is neither empty nor a step of
its own, with no slash and no zero in it. -/
structure IsName (name : String) : Prop where
  ne_nil : name.toList ≠ []
  ne_dot : name.toList ≠ ['.']
  ne_dots : name.toList ≠ ['.', '.']
  no_slash : '/' ∉ name.toList
  no_nul : '\x00' ∉ name.toList
  short : name.utf8ByteSize ≤ nameLimit

instance (name : String) : Decidable (IsName name) :=
  decidable_of_iff (name.toList ≠ [] ∧ name.toList ≠ ['.'] ∧
      name.toList ≠ ['.', '.'] ∧
      '/' ∉ name.toList ∧ '\x00' ∉ name.toList ∧ name.utf8ByteSize ≤ nameLimit)
    ⟨fun ⟨hne, hdot, hdots, hslash, hnul, hshort⟩ =>
        ⟨hne, hdot, hdots, hslash, hnul, hshort⟩,
      fun h => ⟨h.ne_nil, h.ne_dot, h.ne_dots, h.no_slash, h.no_nul, h.short⟩⟩

theorem IsName.head?_ne {name : String} (hname : IsName name) :
    name.toList.head? ≠ some '/' :=
  fun hhead => hname.no_slash (List.mem_of_mem_head? hhead)

theorem IsName.not_isIdle {name : String} (hname : IsName name) :
    Path.isIdle name.toList = false := by
  simp [Path.isIdle, hname.ne_nil, hname.ne_dot]

namespace Path

section Pieces

variable {cs : List Char} {pieces : List (List Char)}

theorem cutAtSlashes_slash (cs : List Char) :
    cutAtSlashes ('/' :: cs) = [] :: cutAtSlashes cs :=
  if_pos rfl

theorem cutAtSlashes_ne_nil (cs : List Char) : cutAtSlashes cs ≠ [] := by
  cases cs with
  | nil => exact List.cons_ne_nil _ _
  | cons c cs =>
      unfold cutAtSlashes
      split
      · exact List.cons_ne_nil _ _
      · split
        · exact List.cons_ne_nil _ _
        · exact List.cons_ne_nil _ _

theorem cutAtSlashes_cons {c : Char} (hc : c ≠ '/') (cs : List Char) :
    ∃ piece pieces, cutAtSlashes cs = piece :: pieces ∧
      cutAtSlashes (c :: cs) = (c :: piece) :: pieces := by
  obtain ⟨piece, pieces, hpieces⟩ :=
    List.exists_cons_of_ne_nil (cutAtSlashes_ne_nil cs)
  refine ⟨piece, pieces, hpieces, ?_⟩
  rw [cutAtSlashes, if_neg hc, hpieces]

theorem cutAtSlashes_of_not_mem (hcs : '/' ∉ cs) : cutAtSlashes cs = [cs] := by
  induction cs with
  | nil => rfl
  | cons c cs ih =>
      rw [List.mem_cons, not_or] at hcs
      obtain ⟨piece, pieces, hpieces, hcut⟩ :=
        cutAtSlashes_cons (Ne.symm hcs.1) cs
      rw [ih hcs.2] at hpieces
      cases hpieces
      exact hcut

theorem cutAtSlashes_append (cs ds : List Char) :
    cutAtSlashes (cs ++ '/' :: ds) = cutAtSlashes cs ++ cutAtSlashes ds := by
  induction cs with
  | nil => exact cutAtSlashes_slash ds
  | cons c cs ih =>
      by_cases hc : c = '/'
      · subst hc
        rw [List.cons_append, cutAtSlashes_slash, cutAtSlashes_slash, ih,
          List.cons_append]
      · obtain ⟨piece, pieces, hpieces, hcut⟩ := cutAtSlashes_cons hc cs
        obtain ⟨piece', pieces', hpieces', hcut'⟩ :=
          cutAtSlashes_cons hc (cs ++ '/' :: ds)
        rw [ih, hpieces, List.cons_append] at hpieces'
        cases hpieces'
        rw [List.cons_append, hcut, hcut', List.cons_append]

theorem not_mem_of_mem_cutAtSlashes {piece : List Char}
    (hpiece : piece ∈ cutAtSlashes cs) : '/' ∉ piece := by
  induction cs generalizing piece with
  | nil =>
      rw [List.mem_singleton.mp hpiece]
      exact List.not_mem_nil
  | cons c cs ih =>
      by_cases hc : c = '/'
      · subst hc
        rw [cutAtSlashes_slash] at hpiece
        rcases List.mem_cons.mp hpiece with rfl | hpiece
        · exact List.not_mem_nil
        · exact ih hpiece
      · obtain ⟨first, others, hcs, hcut⟩ := cutAtSlashes_cons hc cs
        rw [hcut] at hpiece
        rw [hcs] at ih
        rcases List.mem_cons.mp hpiece with rfl | hpiece
        · rw [List.mem_cons, not_or]
          exact ⟨Ne.symm hc, ih List.mem_cons_self⟩
        · exact ih (List.mem_cons_of_mem _ hpiece)

theorem joinPieces_cons {piece : List Char} (hpieces : pieces ≠ []) :
    joinPieces (piece :: pieces) = piece ++ '/' :: joinPieces pieces := by
  cases pieces with
  | nil => contradiction
  | cons next pieces => rfl

theorem joinPieces_cutAtSlashes (cs : List Char) :
    joinPieces (cutAtSlashes cs) = cs := by
  induction cs with
  | nil => rfl
  | cons c cs ih =>
      by_cases hc : c = '/'
      · subst hc
        rw [cutAtSlashes_slash, joinPieces_cons (cutAtSlashes_ne_nil cs), ih,
          List.nil_append]
      · obtain ⟨piece, pieces, hpieces, hcut⟩ := cutAtSlashes_cons hc cs
        rw [hpieces] at ih
        rw [hcut, ← ih]
        cases pieces <;> rfl

theorem cutAtSlashes_joinPieces (hne : pieces ≠ [])
    (hpieces : ∀ piece ∈ pieces, '/' ∉ piece) :
    cutAtSlashes (joinPieces pieces) = pieces := by
  induction pieces with
  | nil => contradiction
  | cons piece pieces ih =>
      rw [List.forall_mem_cons] at hpieces
      by_cases hlast : pieces = []
      · subst hlast
        exact cutAtSlashes_of_not_mem hpieces.1
      · rw [joinPieces_cons hlast, cutAtSlashes_append,
          cutAtSlashes_of_not_mem hpieces.1, ih hlast hpieces.2,
          List.singleton_append]

theorem joinPieces_append {others : List (List Char)} (hpieces : pieces ≠ [])
    (hothers : others ≠ []) :
    joinPieces (pieces ++ others) = joinPieces pieces ++ '/' ::
      joinPieces others := by
  induction pieces with
  | nil => contradiction
  | cons piece pieces ih =>
      have hrest : pieces ++ others ≠ [] :=
        List.append_ne_nil_of_right_ne_nil pieces hothers
      rw [List.cons_append, joinPieces_cons hrest]
      by_cases hlast : pieces = []
      · subst hlast
        rfl
      · rw [ih hlast, joinPieces_cons hlast, List.append_assoc,
          List.cons_append]

theorem prefix_joinPieces {others : List (List Char)}
    (hstarts : others <+: pieces) :
    joinPieces others <+: joinPieces pieces := by
  obtain ⟨rest, rfl⟩ := hstarts
  by_cases hothers : others = []
  · subst hothers
    exact List.nil_prefix
  · by_cases hrest : rest = []
    · have hjoin : joinPieces (others ++ rest) = joinPieces others := by
        rw [hrest, List.append_nil]
      exact hjoin ▸ List.prefix_rfl
    · rw [joinPieces_append hothers hrest]
      exact List.prefix_append _ _

/-- The pieces without an empty one at the end, which a slash at the end
leaves. -/
def withoutLastEmpty (pieces : List (List Char)) : List (List Char) :=
  if pieces.getLast? = some [] then pieces.dropLast else pieces

theorem withoutLastEmpty_concat {piece : List Char} (hpiece : piece ≠ [])
    (pieces : List (List Char)) :
    withoutLastEmpty (pieces ++ [piece]) = pieces ++ [piece] := by
  rw [withoutLastEmpty, List.getLast?_concat, if_neg]
  rintro ⟨⟩
  exact hpiece rfl

theorem withoutLastEmpty_append_empty (pieces : List (List Char)) :
    withoutLastEmpty (pieces ++ [[]]) = pieces := by
  rw [withoutLastEmpty, List.getLast?_concat, if_pos rfl, List.dropLast_concat]

theorem withoutLastEmpty_cutAtSlashes (hne : cs ≠ [])
    (hlast : cs.getLast? ≠ some '/') :
    withoutLastEmpty (cutAtSlashes cs) = cutAtSlashes cs := by
  refine if_neg fun hempty => ?_
  obtain ⟨front, hfront⟩ := List.getLast?_eq_some_iff.mp hempty
  have hjoin := joinPieces_cutAtSlashes cs
  rw [hfront] at hjoin
  by_cases hnil : front = []
  · subst hnil
    exact hne hjoin.symm
  · rw [joinPieces_append hnil (List.cons_ne_nil _ _)] at hjoin
    rw [← hjoin] at hlast
    exact hlast List.getLast?_concat

/-- The slash between a text and what it is continued with. -/
def separatorAfter (cs : List Char) : List Char :=
  if cs = [] ∨ cs.getLast? = some '/' then [] else ['/']

theorem cutAtSlashes_continue (name cs : List Char) :
    cutAtSlashes (cs ++ (separatorAfter cs ++ name)) =
      withoutLastEmpty (cutAtSlashes cs) ++ cutAtSlashes name := by
  unfold separatorAfter
  split
  · next hends =>
      rcases hends with rfl | hslash
      · rfl
      · obtain ⟨front, rfl⟩ := List.getLast?_eq_some_iff.mp hslash
        have hfront : cutAtSlashes (front ++ ['/']) =
            cutAtSlashes front ++ [[]] :=
          cutAtSlashes_append front []
        rw [List.append_assoc, List.singleton_append, List.nil_append,
          cutAtSlashes_append, hfront, withoutLastEmpty_append_empty]
  · next hgoes =>
      rw [not_or] at hgoes
      rw [List.singleton_append, cutAtSlashes_append,
        withoutLastEmpty_cutAtSlashes hgoes.1 hgoes.2]

end Pieces

section Bodies

variable {p : Path} {front : List Char} {body : List (List Char)}
  {name : String}

/-- A path is written as a front and the pieces behind it: from the root, from
the dot at the front, or from neither, and then the first piece makes a step. -/
inductive IsWritten (p : Path) : List Char → List (List Char) → Prop
  | absolute (rest : List Char) (htext : p.text.toList = '/' :: rest) :
      IsWritten p ['/'] (cutAtSlashes rest)
  | here (others : List (List Char))
      (hrelative : p.text.toList.head? ≠ some '/')
      (hpieces : cutAtSlashes p.text.toList = ['.'] :: others) :
      IsWritten p ['.'] others
  | plain (hrelative : p.text.toList.head? ≠ some '/')
      (hhere : (cutAtSlashes p.text.toList).head? ≠ some ['.']) :
      IsWritten p [] (cutAtSlashes p.text.toList)

theorem pieces_absolute {rest : List Char}
    (htext : p.text.toList = '/' :: rest) :
    p.isAbsolute = true ∧ p.pieces = cutAtSlashes rest := by
  rw [isAbsolute, pieces, htext]
  exact ⟨rfl, rfl⟩

theorem pieces_relative (hrelative : p.text.toList.head? ≠ some '/') :
    p.isAbsolute = false ∧ p.pieces = cutAtSlashes p.text.toList := by
  constructor
  · rw [isAbsolute, beq_eq_false_iff_ne]
    exact hrelative
  · unfold pieces
    split
    · next rest htext => exact absurd (by rw [htext]; rfl) hrelative
    · rfl

theorem IsWritten.isAbsolute_eq (hp : p.IsWritten front body) :
    p.isAbsolute = decide (front = ['/']) := by
  cases hp with
  | absolute rest htext => exact (pieces_absolute htext).1
  | here others hrelative hcut => exact (pieces_relative hrelative).1
  | plain hrelative hhere => exact (pieces_relative hrelative).1

theorem IsWritten.pieces_eq (hp : p.IsWritten front body) :
    p.pieces = (if front = ['.'] then [['.']] else []) ++ body := by
  cases hp with
  | absolute rest htext => exact (pieces_absolute htext).2
  | here others hrelative hcut => exact (pieces_relative hrelative).2.trans hcut
  | plain hrelative hhere => exact (pieces_relative hrelative).2

theorem IsWritten.frontAndBody_eq (hp : p.IsWritten front body) :
    p.frontAndBody = (front, body) := by
  cases hp with
  | absolute rest htext =>
      obtain ⟨habsolute, hpieces⟩ := pieces_absolute htext
      rw [frontAndBody, habsolute, if_pos rfl, hpieces]
  | here others hrelative hcut =>
      obtain ⟨habsolute, hpieces⟩ := pieces_relative hrelative
      simp [frontAndBody, startsHere, habsolute, hpieces, hcut]
  | plain hrelative hhere =>
      obtain ⟨habsolute, hpieces⟩ := pieces_relative hrelative
      simp [frontAndBody, startsHere, habsolute, hpieces, hhere]

theorem exists_isWritten (p : Path) : ∃ front body, p.IsWritten front body := by
  by_cases hslash : p.text.toList.head? = some '/'
  · obtain ⟨rest, hrest⟩ := List.head?_eq_some_iff.mp hslash
    exact ⟨_, _, .absolute rest hrest⟩
  · by_cases hhere : (cutAtSlashes p.text.toList).head? = some ['.']
    · obtain ⟨others, hothers⟩ := List.head?_eq_some_iff.mp hhere
      exact ⟨_, _, .here others hslash hothers⟩
    · exact ⟨_, _, .plain hslash hhere⟩

theorem toList_join (hname : name.toList.head? ≠ some '/') (p : Path) :
    (p.join name).text.toList =
      p.text.toList ++ (separatorAfter p.text.toList ++ name.toList) := by
  rw [join, if_neg hname, separatorAfter]
  split
  · rw [String.toList_append, List.nil_append]
  · simp [String.toList_append]

theorem withoutLastEmpty_cons {piece : List Char} (hpiece : piece ≠ [])
    (pieces : List (List Char)) :
    withoutLastEmpty (piece :: pieces) = piece :: withoutLastEmpty pieces := by
  cases pieces with
  | nil => exact withoutLastEmpty_concat hpiece []
  | cons next pieces =>
      rw [withoutLastEmpty, withoutLastEmpty, List.getLast?_cons_cons]
      split
      · rfl
      · rfl

/-- A text that does not start with a slash has no empty piece in front. -/
theorem exists_cutAtSlashes_eq_cons {cs : List Char} (hne : cs ≠ [])
    (hrelative : cs.head? ≠ some '/') :
    ∃ piece pieces, cutAtSlashes cs = piece :: pieces ∧ piece ≠ [] := by
  obtain ⟨c, rest, rfl⟩ := List.exists_cons_of_ne_nil hne
  have hc : c ≠ '/' := fun heq => hrelative (congrArg some heq)
  obtain ⟨piece, pieces, _, hcut⟩ := cutAtSlashes_cons hc rest
  exact ⟨c :: piece, pieces, hcut, List.cons_ne_nil _ _⟩

/-- The first piece of a text that starts neither with a slash nor with a dot of
its own is a step. -/
theorem exists_first_step {cs : List Char} (hne : cs ≠ [])
    (hrelative : cs.head? ≠ some '/')
    (hhere : (cutAtSlashes cs).head? ≠ some ['.']) :
    ∃ piece pieces, cutAtSlashes cs = piece :: pieces ∧
      isIdle piece = false := by
  obtain ⟨piece, pieces, hpieces, hpiece⟩ :=
    exists_cutAtSlashes_eq_cons hne hrelative
  refine ⟨piece, pieces, hpieces, ?_⟩
  rw [hpieces, List.head?_cons] at hhere
  rw [isIdle, Bool.or_eq_false_iff, beq_eq_false_iff_ne, beq_eq_false_iff_ne]
  exact ⟨hpiece, fun heq => hhere (congrArg some heq)⟩

/-- The pieces of what a path is continued with come behind the body. -/
theorem IsWritten.join_relative (hp : p.IsWritten front body)
    (hne : p.text.toList ≠ []) (hname : name.toList.head? ≠ some '/') :
    (p.join name).IsWritten front
      (withoutLastEmpty body ++ cutAtSlashes name.toList) := by
  have htext := toList_join hname p
  have hhead : (p.join name).text.toList.head? = p.text.toList.head? := by
    obtain ⟨c, rest, hrest⟩ := List.exists_cons_of_ne_nil hne
    rw [htext, hrest]
    rfl
  have hcut : cutAtSlashes (p.join name).text.toList =
      withoutLastEmpty (cutAtSlashes p.text.toList) ++
        cutAtSlashes name.toList := by
    rw [htext, cutAtSlashes_continue]
  cases hp with
  | absolute rest hrest =>
      have hsame : separatorAfter ('/' :: rest) = separatorAfter rest := by
        cases rest with
        | nil => rfl
        | cons c rest => simp [separatorAfter, List.getLast?_cons_cons]
      rw [hrest, hsame, List.cons_append] at htext
      rw [← cutAtSlashes_continue]
      exact .absolute _ htext
  | here others hrelative hpieces =>
      rw [hpieces, withoutLastEmpty_cons (List.cons_ne_nil _ _),
        List.cons_append] at hcut
      exact .here _ (hhead ▸ hrelative) hcut
  | plain hrelative hhere =>
      obtain ⟨piece, pieces, hpieces, hpiece⟩ :=
        exists_cutAtSlashes_eq_cons hne hrelative
      rw [← hcut]
      refine .plain (hhead ▸ hrelative) ?_
      rw [hpieces, List.head?_cons] at hhere
      rwa [hcut, hpieces, withoutLastEmpty_cons hpiece, List.cons_append,
        List.head?_cons]

/-- One more name is one more piece behind the body. -/
theorem IsWritten.join (hp : p.IsWritten front body) (hne : p.text.toList ≠ [])
    (hname : IsName name) :
    (p.join name).IsWritten front (withoutLastEmpty body ++ [name.toList]) := by
  rw [← cutAtSlashes_of_not_mem hname.no_slash]
  exact hp.join_relative hne hname.head?_ne

theorem pieces_join (hne : p.text.toList ≠ []) (hname : IsName name) :
    (p.join name).pieces = withoutLastEmpty p.pieces ++ [name.toList] := by
  obtain ⟨front, body, hp⟩ := p.exists_isWritten
  rw [(hp.join hne hname).pieces_eq, hp.pieces_eq]
  split
  · rw [List.singleton_append, List.singleton_append,
      withoutLastEmpty_cons (List.cons_ne_nil _ _), List.cons_append]
  · rfl

theorem isAbsolute_join (hne : p.text.toList ≠ []) (hname : IsName name) :
    (p.join name).isAbsolute = p.isAbsolute := by
  obtain ⟨front, body, hp⟩ := p.exists_isWritten
  rw [(hp.join hne hname).isAbsolute_eq, hp.isAbsolute_eq]

/-- The step that a front makes. -/
def frontSteps (front : List Char) : List Component :=
  if front = ['/'] then [.root] else if front = ['.'] then [.here] else []

theorem IsWritten.components_eq (hp : p.IsWritten front body) :
    p.components = frontSteps front ++
      (body.filter fun piece => !isIdle piece).map componentOf := by
  cases hp with
  | absolute rest htext =>
      obtain ⟨habsolute, hpieces⟩ := pieces_absolute htext
      rw [components, habsolute, hpieces]
      rfl
  | here others hrelative hcut =>
      obtain ⟨habsolute, hpieces⟩ := pieces_relative hrelative
      simp [components, startsHere, habsolute, hpieces, hcut,
        frontSteps, isIdle]
  | plain hrelative hhere =>
      obtain ⟨habsolute, hpieces⟩ := pieces_relative hrelative
      simp [components, startsHere, habsolute, hpieces, hhere, frontSteps]

theorem filter_withoutLastEmpty (body : List (List Char)) :
    (withoutLastEmpty body).filter (fun piece => !isIdle piece) =
      body.filter fun piece => !isIdle piece := by
  unfold withoutLastEmpty
  split
  · next hempty =>
      obtain ⟨others, rfl⟩ := List.getLast?_eq_some_iff.mp hempty
      simp [isIdle]
  · rfl

theorem componentOf_name (hname : IsName name) :
    componentOf name.toList = .name name := by
  rw [componentOf, if_neg hname.ne_dots, String.ofList_toList]

/-- The steps that a text makes from where it is continued. -/
def stepsOf (cs : List Char) : List Component :=
  ((cutAtSlashes cs).filter fun piece => !isIdle piece).map componentOf

theorem components_join_relative (hne : p.text.toList ≠ [])
    (hname : name.toList.head? ≠ some '/') :
    (p.join name).components = p.components ++ stepsOf name.toList := by
  obtain ⟨front, body, hp⟩ := p.exists_isWritten
  rw [(hp.join_relative hne hname).components_eq, hp.components_eq,
    List.filter_append, filter_withoutLastEmpty, List.map_append,
    List.append_assoc, stepsOf]

@[simp] theorem components_join (hne : p.text.toList ≠ [])
    (hname : IsName name) :
    (p.join name).components = p.components ++ [.name name] := by
  rw [components_join_relative hne hname.head?_ne, stepsOf,
    cutAtSlashes_of_not_mem hname.no_slash]
  simp [hname.not_isIdle, componentOf_name hname]

theorem fileName?_join (hne : p.text.toList ≠ []) (hname : IsName name) :
    (p.join name).fileName? = some name := by
  rw [fileName?, components_join hne hname, List.getLast?_concat]

theorem dropIdleEnd_concat {piece : List Char} (hpiece : isIdle piece = false)
    (pieces : List (List Char)) :
    dropIdleEnd (pieces ++ [piece]) = pieces ++ [piece] := by
  simp [dropIdleEnd, hpiece]

theorem dropIdleEnd_append_of_idle {idles : List (List Char)}
    (hidles : ∀ piece ∈ idles, isIdle piece = true)
    (pieces : List (List Char)) :
    dropIdleEnd (pieces ++ idles) = dropIdleEnd pieces := by
  rw [dropIdleEnd, List.reverse_append, List.dropWhile_append_of_pos]
  · rfl
  · exact fun piece hpiece => hidles piece (List.mem_reverse.mp hpiece)

theorem exists_dropIdleEnd_append (pieces : List (List Char)) :
    ∃ idles, (∀ piece ∈ idles, isIdle piece = true) ∧
      pieces = dropIdleEnd pieces ++ idles := by
  refine ⟨(pieces.reverse.takeWhile isIdle).reverse, ?_, ?_⟩
  · intro piece hpiece
    exact List.mem_takeWhile_imp (List.mem_reverse.mp hpiece)
  · rw [dropIdleEnd, ← List.reverse_append, List.takeWhile_append_dropWhile,
      List.reverse_reverse]

theorem prefix_dropIdleEnd (pieces : List (List Char)) :
    dropIdleEnd pieces <+: pieces := by
  obtain ⟨idles, _, hpieces⟩ := exists_dropIdleEnd_append pieces
  exact ⟨idles, hpieces.symm⟩

theorem withoutLastEmpty_eq_or (pieces : List (List Char)) :
    pieces = withoutLastEmpty pieces ∨
      pieces = withoutLastEmpty pieces ++ [[]] := by
  by_cases hempty : pieces.getLast? = some []
  · obtain ⟨others, rfl⟩ := List.getLast?_eq_some_iff.mp hempty
    rw [withoutLastEmpty_append_empty]
    exact Or.inr rfl
  · exact Or.inl (if_neg hempty).symm

theorem dropIdleEnd_withoutLastEmpty (pieces : List (List Char)) :
    dropIdleEnd (withoutLastEmpty pieces) = dropIdleEnd pieces := by
  rcases withoutLastEmpty_eq_or pieces with heq | heq
  · rw [← heq]
  · have hidle : ∀ piece ∈ [([] : List Char)], isIdle piece = true := by
      simp [isIdle]
    rw [heq, withoutLastEmpty_append_empty, dropIdleEnd_append_of_idle hidle]

/-- The path without what makes no step at its end. -/
def bare (p : Path) : Path :=
  ofFrontAndBody p.frontAndBody.1 (dropIdleEnd p.frontAndBody.2)

theorem parent?_join (hne : p.text.toList ≠ []) (hname : IsName name) :
    (p.join name).parent? = some p.bare := by
  obtain ⟨front, body, hp⟩ := p.exists_isWritten
  rw [parent?, (hp.join hne hname).frontAndBody_eq, bare, hp.frontAndBody_eq]
  dsimp only
  rw [dropIdleEnd_concat hname.not_isIdle, List.reverse_append,
    List.reverse_singleton, List.singleton_append]
  dsimp only
  rw [List.reverse_reverse, dropIdleEnd_withoutLastEmpty]

theorem IsWritten.ofFrontAndBody_eq (hp : p.IsWritten front body) :
    ofFrontAndBody front body = p := by
  have hpath {cs : List Char} (hcs : p.text.toList = cs) :
      (⟨String.ofList cs⟩ : Path) = p := by
    rw [← hcs, String.ofList_toList]
  cases hp with
  | absolute rest htext =>
      rw [ofFrontAndBody]
      refine hpath ?_
      rw [htext, if_neg (by simp [cutAtSlashes_ne_nil]), if_neg (by decide),
        joinPieces_cutAtSlashes]
      rfl
  | here others hrelative hcut =>
      have hjoin := joinPieces_cutAtSlashes p.text.toList
      rw [hcut] at hjoin
      rw [ofFrontAndBody]
      refine hpath ?_
      rw [← hjoin]
      cases body <;> rfl
  | plain hrelative hhere =>
      rw [ofFrontAndBody]
      refine hpath ?_
      rw [if_neg (by simp [cutAtSlashes_ne_nil]), if_neg (by decide),
        joinPieces_cutAtSlashes]
      rfl

theorem toList_ofFrontAndBody (front : List Char) (body : List (List Char)) :
    (ofFrontAndBody front body).text.toList =
      if body = [] then front
      else if front = ['.'] then '.' :: '/' :: joinPieces body
        else front ++ joinPieces body := by
  rw [ofFrontAndBody, String.toList_ofList]
  simp only [List.isEmpty_iff]

theorem prefix_toList_ofFrontAndBody (front : List Char)
    {body all : List (List Char)} (hstarts : body <+: all) :
    (ofFrontAndBody front body).text.toList <+:
      (ofFrontAndBody front all).text.toList := by
  rw [toList_ofFrontAndBody, toList_ofFrontAndBody]
  by_cases hall : all = []
  · subst hall
    obtain rfl := List.prefix_nil.mp hstarts
    exact List.prefix_rfl
  · rw [if_neg hall]
    by_cases hdot : front = ['.']
    · subst hdot
      split
      · exact List.prefix_append ['.'] _
      · rw [if_pos rfl, if_pos rfl, List.cons_prefix_cons,
          List.cons_prefix_cons]
        exact ⟨rfl, rfl, prefix_joinPieces hstarts⟩
    · rw [if_neg hdot, if_neg hdot]
      split
      · exact List.prefix_append front _
      · rw [List.prefix_append_right_inj]
        exact prefix_joinPieces hstarts

theorem prefix_toList_bare (p : Path) :
    p.bare.text.toList <+: p.text.toList := by
  obtain ⟨front, body, hp⟩ := p.exists_isWritten
  have hbare := prefix_toList_ofFrontAndBody front (prefix_dropIdleEnd body)
  rw [hp.ofFrontAndBody_eq] at hbare
  rwa [bare, hp.frontAndBody_eq]

theorem IsWritten.not_mem (hp : p.IsWritten front body) {piece : List Char}
    (hpiece : piece ∈ body) : '/' ∉ piece := by
  cases hp with
  | absolute rest htext => exact not_mem_of_mem_cutAtSlashes hpiece
  | here others hrelative hcut =>
      have hmem : piece ∈ cutAtSlashes p.text.toList := by
        rw [hcut]
        exact List.mem_cons_of_mem _ hpiece
      exact not_mem_of_mem_cutAtSlashes hmem
  | plain hrelative hhere => exact not_mem_of_mem_cutAtSlashes hpiece

theorem dropIdleEnd_cons {piece : List Char} (hpiece : isIdle piece = false)
    (pieces : List (List Char)) :
    dropIdleEnd (piece :: pieces) = piece :: dropIdleEnd pieces := by
  rw [dropIdleEnd, dropIdleEnd, List.reverse_cons, List.dropWhile_append]
  split
  · next hempty =>
      rw [List.isEmpty_iff] at hempty
      simp [hempty, hpiece]
  · rw [List.reverse_append, List.reverse_singleton, List.singleton_append]

/-- The first pieces of a path are written as the body of the path that they
make, but there is one piece behind the root. -/
theorem IsWritten.initial (hp : p.IsWritten front body)
    {initial : List (List Char)} (hstarts : initial <+: body)
    (hsome : front = [] → initial ≠ []) :
    (ofFrontAndBody front initial).IsWritten front
      (if front = ['/'] ∧ initial = [] then [[]] else initial) := by
  have hslash : ∀ piece ∈ initial, '/' ∉ piece :=
    fun piece hpiece => hp.not_mem (hstarts.subset hpiece)
  have htext := toList_ofFrontAndBody front initial
  generalize ofFrontAndBody front initial = q at htext ⊢
  cases hp with
  | absolute rest hrest =>
      split
      · next hempty =>
          rw [if_pos hempty.2] at htext
          exact .absolute [] htext
      · next hsome =>
          have hkept : initial ≠ [] := fun hempty => hsome ⟨rfl, hempty⟩
          rw [if_neg hkept, if_neg (by decide)] at htext
          rw [← cutAtSlashes_joinPieces hkept hslash]
          exact .absolute _ htext
  | here others hrelative hcut =>
      rw [if_neg (fun hboth => absurd hboth.1 (by decide))]
      by_cases hempty : initial = []
      · rw [if_pos hempty] at htext
        rw [hempty]
        refine .here [] ?_ ?_
        · rw [htext]
          decide
        · rw [htext]
          rfl
      · rw [if_neg hempty, if_pos rfl] at htext
        refine .here _ ?_ ?_
        · rw [htext, List.head?_cons]
          decide
        · have hdot := cutAtSlashes_append ['.'] (joinPieces initial)
          rw [htext]
          rw [cutAtSlashes_joinPieces hempty hslash] at hdot
          exact hdot
  | plain hrelative hhere =>
      have hinitial := hsome rfl
      obtain ⟨piece, pieces, rfl⟩ := List.exists_cons_of_ne_nil hinitial
      rw [if_neg hinitial, if_neg (by decide), List.nil_append] at htext
      have hcut := cutAtSlashes_joinPieces hinitial hslash
      rw [← htext] at hcut
      have hhead : (cutAtSlashes p.text.toList).head? = some piece := by
        obtain ⟨rest, hrest⟩ := hstarts
        rw [← hrest]
        rfl
      rw [if_neg (fun hboth => absurd hboth.1 (by decide))]
      have hfront : q.text.toList.head? ≠ some '/' := by
        by_cases hne : p.text.toList = []
        · -- The empty text has one piece, and that is empty.
          obtain ⟨rest, hrest⟩ := hstarts
          rw [hne] at hrest
          obtain ⟨rfl, hnil⟩ := List.cons.inj hrest
          obtain ⟨rfl, _⟩ := List.append_eq_nil_iff.mp hnil
          rw [htext]
          exact nofun
        · obtain ⟨first, others, hfirst, hne⟩ :=
            exists_cutAtSlashes_eq_cons hne hrelative
          rw [hfirst, List.head?_cons, Option.some.injEq] at hhead
          subst hhead
          obtain ⟨c, rest, rfl⟩ := List.exists_cons_of_ne_nil hne
          have hc : c ≠ '/' := by
            rintro rfl
            exact hslash _ List.mem_cons_self List.mem_cons_self
          rw [htext]
          cases pieces <;> simpa [joinPieces] using hc
      rw [← hcut]
      refine .plain hfront ?_
      rw [hcut]
      rwa [hhead] at hhere

/-- What makes no step at the end is left out, but there is one piece behind the
root. -/
theorem IsWritten.bare (hp : p.IsWritten front body)
    (hne : p.text.toList ≠ []) :
    p.bare.IsWritten front
      (if front = ['/'] ∧ dropIdleEnd body = [] then [[]]
        else dropIdleEnd body) := by
  rw [Path.bare, hp.frontAndBody_eq]
  refine hp.initial (prefix_dropIdleEnd body) ?_
  rintro rfl
  cases hp with
  | plain hrelative hhere =>
      obtain ⟨piece, pieces, hpieces, hstep⟩ :=
        exists_first_step hne hrelative hhere
      rw [hpieces, dropIdleEnd_cons hstep]
      exact List.cons_ne_nil _ _

/-- A path that is not empty makes a step. -/
theorem components_ne_nil (hne : p.text.toList ≠ []) : p.components ≠ [] := by
  obtain ⟨front, body, hp⟩ := p.exists_isWritten
  rw [hp.components_eq]
  cases hp with
  | absolute rest htext => exact List.cons_ne_nil _ _
  | here others hrelative hcut => exact List.cons_ne_nil _ _
  | plain hrelative hhere =>
      obtain ⟨piece, pieces, hpieces, hstep⟩ :=
        exists_first_step hne hrelative hhere
      simp [hpieces, hstep]

theorem filter_dropIdleEnd (body : List (List Char)) :
    (dropIdleEnd body).filter (fun piece => !isIdle piece) =
      body.filter fun piece => !isIdle piece := by
  obtain ⟨idles, hidles, hbody⟩ := exists_dropIdleEnd_append body
  have hnone : idles.filter (fun piece => !isIdle piece) = [] := by
    rw [List.filter_eq_nil_iff]
    intro piece hpiece
    simp [hidles piece hpiece]
  rw [hbody, List.filter_append, hnone, List.append_nil, ← hbody]

/-- The path makes the same steps without what makes none. -/
theorem components_bare (hne : p.text.toList ≠ []) :
    p.bare.components = p.components := by
  obtain ⟨front, body, hp⟩ := p.exists_isWritten
  rw [(hp.bare hne).components_eq, hp.components_eq]
  congr 2
  split
  · next hempty =>
      rw [← filter_dropIdleEnd body, hempty.2]
      rfl
  · exact filter_dropIdleEnd body

theorem bare_ne_nil (hne : p.text.toList ≠ []) : p.bare.text.toList ≠ [] := by
  intro hnil
  have hempty : p.bare.components = [] := by
    rw [components, isAbsolute, startsHere, isAbsolute, pieces, hnil]
    rfl
  rw [components_bare hne] at hempty
  exact components_ne_nil hne hempty

end Bodies

end Path

end WebConfigAudit
