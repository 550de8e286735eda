import WebConfigAudit.Proofs.PathPieces
/-!
Paths that lead down from another by names.  The names can be read off such a
path, both as its last steps and as what is left of it after the steps of the
path above.
-/

namespace WebConfigAudit

theorem utf8ByteSize_le_of_starts {s t : String}
    (hstarts : s.toList <+: t.toList) : s.utf8ByteSize ≤ t.utf8ByteSize := by
  obtain ⟨rest, hrest⟩ := hstarts
  have ht : t = s ++ String.ofList rest := by
    rw [← String.toList_inj, String.toList_append, String.toList_ofList, hrest]
  rw [ht, String.utf8ByteSize_append]
  exact Nat.le_add_right _ _

namespace Path

/-- The path that leads down by names, one directory at a time. -/
def below (base : Path) (names : List String) : Path :=
  names.foldl Path.join base

section Below

variable {base : Path} {names : List String} {name : String} {front : List Char}
  {body : List (List Char)}

@[simp] theorem below_nil (base : Path) : base.below [] = base := rfl

theorem below_cons (base : Path) (name : String) (names : List String) :
    base.below (name :: names) = (base.join name).below names := rfl

theorem below_concat (base : Path) (names : List String) (name : String) :
    base.below (names ++ [name]) = (base.below names).join name := by
  rw [below, List.foldl_append]
  rfl

theorem toList_prefix_join (hname : IsName name) (base : Path) :
    base.text.toList <+: (base.join name).text.toList := by
  rw [toList_join hname.head?_ne]
  exact List.prefix_append _ _

/-- A name makes a path longer, at most by a slash more than it is long. -/
theorem utf8ByteSize_join (hname : IsName name) (base : Path) :
    base.text.utf8ByteSize + name.utf8ByteSize ≤
        (base.join name).text.utf8ByteSize ∧
      (base.join name).text.utf8ByteSize ≤
        base.text.utf8ByteSize + name.utf8ByteSize + 1 := by
  rw [join, if_neg hname.head?_ne]
  have hslash : "/".utf8ByteSize = 1 := rfl
  split
  · rw [String.utf8ByteSize_append]
    omega
  · rw [String.utf8ByteSize_append, String.utf8ByteSize_append]
    omega

theorem toList_join_ne_nil (hname : IsName name) (base : Path) :
    (base.join name).text.toList ≠ [] := by
  rw [toList_join hname.head?_ne]
  simp [hname.ne_nil]

theorem toList_prefix_below (hnames : ∀ name ∈ names, IsName name)
    (base : Path) : base.text.toList <+: (base.below names).text.toList := by
  induction names generalizing base with
  | nil => exact List.prefix_rfl
  | cons name names ih =>
      rw [List.forall_mem_cons] at hnames
      exact (toList_prefix_join hnames.1 base).trans (ih hnames.2 _)

theorem toList_below_ne_nil (hne : base.text.toList ≠ [])
    (hnames : ∀ name ∈ names, IsName name) :
    (base.below names).text.toList ≠ [] := by
  intro hnil
  have hstarts := toList_prefix_below hnames base
  rw [hnil, List.prefix_nil] at hstarts
  exact hne hstarts

theorem components_below (hne : base.text.toList ≠ [])
    (hnames : ∀ name ∈ names, IsName name) :
    (base.below names).components =
      base.components ++ names.map Component.name := by
  induction names generalizing base with
  | nil => simp
  | cons name names ih =>
      rw [List.forall_mem_cons] at hnames
      rw [below_cons, ih (toList_join_ne_nil hnames.1 base) hnames.2,
        components_join hne hnames.1, List.map_cons, List.append_assoc,
        List.singleton_append]

/-- Different names lead to paths with different steps. -/
theorem below_injective (hne : base.text.toList ≠ []) {others : List String}
    (hnames : ∀ name ∈ names, IsName name)
    (hothers : ∀ name ∈ others, IsName name)
    (hsame : (base.below names).components = (base.below others).components) :
    names = others := by
  rw [components_below hne hnames, components_below hne hothers] at hsame
  have hmap := List.append_cancel_left hsame
  exact (List.map_inj_right fun _ _ heq => Component.name.inj heq).mp hmap

theorem IsWritten.below (hp : base.IsWritten front body)
    (hne : base.text.toList ≠ []) (hnames : ∀ name ∈ names, IsName name)
    (hsome : names ≠ []) :
    (base.below names).IsWritten front
      (withoutLastEmpty body ++ names.map String.toList) := by
  induction names generalizing base body with
  | nil => contradiction
  | cons name names ih =>
      rw [List.forall_mem_cons] at hnames
      have hjoin := hp.join hne hnames.1
      rw [below_cons, List.map_cons]
      by_cases hlast : names = []
      · subst hlast
        exact hjoin
      · have hdown := ih hjoin (toList_join_ne_nil hnames.1 base) hnames.2 hlast
        rwa [withoutLastEmpty_concat hnames.1.ne_nil, List.append_assoc,
          List.singleton_append] at hdown

/-- The steps of a body, dropped, leave what makes no step before the rest. -/
theorem dropWhile_dropSteps {rest : List (List Char)}
    (hrest : ∀ piece ∈ rest.head?, isIdle piece = false)
    (body : List (List Char)) :
    (dropSteps (body.filter fun piece => !isIdle piece).length
      (body ++ rest)).dropWhile isIdle =
      rest := by
  induction body with
  | nil =>
      cases rest with
      | nil => rfl
      | cons piece rest => simp [dropSteps, hrest piece rfl]
  | cons piece body ih =>
      cases hidle : isIdle piece with
      | true =>
          rw [List.filter_cons_of_neg (by simp [hidle]), List.cons_append]
          cases hlength : (body.filter fun piece => !isIdle piece).length with
          | zero =>
              rw [hlength] at ih
              rw [dropSteps, List.dropWhile_cons_of_pos hidle]
              rwa [dropSteps] at ih
          | succ n =>
              rw [hlength] at ih
              rwa [dropSteps, if_pos hidle]
      | false =>
          rw [List.filter_cons_of_pos (by simp [hidle]), List.length_cons,
            List.cons_append, dropSteps, if_neg (by simp [hidle])]
          exact ih

theorem toList_intercalate_slash (names : List String) :
    ("/".intercalate names).toList = joinPieces (names.map String.toList) := by
  induction names with
  | nil => rfl
  | cons name names ih =>
      cases names with
      | nil => rfl
      | cons next names =>
          have hnext : (next :: names).map String.toList ≠ [] := by simp
          rw [List.map_cons, joinPieces_cons hnext, ← ih,
            String.intercalate_cons_cons, String.toList_append,
            String.toList_append, List.append_assoc]
          rfl

theorem dropIdleEnd_names (hnames : ∀ name ∈ names, IsName name) :
    dropIdleEnd (names.map String.toList) = names.map String.toList := by
  rcases List.eq_nil_or_concat names with rfl | ⟨others, name, rfl⟩
  · rfl
  · have hname : IsName name := hnames name (by simp)
    rw [List.concat_eq_append, List.map_append, List.map_singleton,
      dropIdleEnd_concat hname.not_isIdle]

theorem ofFrontAndBody_names (hsome : names ≠ []) :
    ofFrontAndBody [] (names.map String.toList) = ⟨"/".intercalate names⟩ := by
  have hpieces : names.map String.toList ≠ [] := by simpa using hsome
  have htext : (ofFrontAndBody [] (names.map String.toList)).text.toList =
      ("/".intercalate names).toList := by
    rw [toList_ofFrontAndBody, if_neg hpieces, if_neg (by decide),
      toList_intercalate_slash]
    rfl
  rw [String.toList_inj] at htext
  rw [← htext]

theorem IsWritten.length_frontSteps (hp : base.IsWritten front body) :
    (frontSteps front).length = if front.isEmpty then 0 else 1 := by
  cases hp <;> rfl

theorem IsWritten.length_steps (hp : base.IsWritten front body) :
    base.components.length - (frontSteps front).length =
      (body.filter fun piece => !isIdle piece).length := by
  rw [hp.components_eq, List.length_append, List.length_map,
    Nat.add_sub_cancel_left]

/-- The pieces that are left of a body after `n` steps, with nothing idle at
either end. -/
def remaining (n : Nat) (body : List (List Char)) : List (List Char) :=
  dropIdleEnd ((dropSteps n body).dropWhile isIdle)

/-- What is left of a path behind a base that makes a step, as its pieces. -/
theorem IsWritten.stripBase?_eq {path : Path} (hp : path.IsWritten front body)
    (hstarts : base.components <+: path.components)
    (hsteps : base.components ≠ []) :
    path.stripBase? base =
      some (ofFrontAndBody []
        (remaining (base.components.length - (frontSteps front).length)
          body)) := by
  rw [hp.length_frontSteps, stripBase?, hp.frontAndBody_eq]
  simp only [List.isPrefixOf_iff_prefix.mpr hstarts, List.isEmpty_iff, hsteps,
    if_true, if_false]
  rfl

/-- What is left of a path after the steps of the path above are the names
between them. -/
theorem stripBase?_below (hne : base.text.toList ≠ [])
    (hnames : ∀ name ∈ names, IsName name) (hsome : names ≠ []) :
    (base.below names).stripBase? base = some ⟨"/".intercalate names⟩ := by
  obtain ⟨front, body, hp⟩ := base.exists_isWritten
  have hstarts : base.components <+: (base.below names).components := by
    rw [components_below hne hnames]
    exact List.prefix_append _ _
  have hrest : ∀ piece ∈ (names.map String.toList).head?,
      isIdle piece = false := by
    intro piece hpiece
    obtain ⟨name, hname, rfl⟩ := List.mem_map.mp (List.mem_of_mem_head? hpiece)
    exact (hnames name hname).not_isIdle
  rw [(hp.below hne hnames hsome).stripBase?_eq hstarts (components_ne_nil hne),
    hp.length_steps, ← filter_withoutLastEmpty, remaining,
    dropWhile_dropSteps hrest, dropIdleEnd_names hnames,
    ofFrontAndBody_names hsome]

end Below

end Path

namespace Location

theorem toList_path (place : Location) :
    place.path.text.toList =
      '/' :: Path.joinPieces (place.map String.toList) := by
  rw [Location.path, String.toList_append, Path.toList_intercalate_slash]
  rfl

theorem steps_path {place : Location} (hplace : ∀ name ∈ place, IsName name) :
    (Path.cutAtSlashes (Path.joinPieces (place.map String.toList))).filter
      (fun piece => !Path.isIdle piece) = place.map String.toList := by
  have hname : ∀ piece ∈ place.map String.toList, '/' ∉ piece ∧
      (!Path.isIdle piece) = true := by
    intro piece hpiece
    obtain ⟨name, hname, rfl⟩ := List.mem_map.mp hpiece
    simp [(hplace name hname).no_slash, (hplace name hname).not_isIdle]
  by_cases hroot : place.map String.toList = []
  · rw [hroot]
    rfl
  · rw [Path.cutAtSlashes_joinPieces hroot fun piece hpiece =>
        (hname piece hpiece).1,
      List.filter_eq_self]
    exact fun piece hpiece => (hname piece hpiece).2

/-- Different places have different paths. -/
theorem path_injective {place other : Location}
    (hplace : ∀ name ∈ place, IsName name)
    (hother : ∀ name ∈ other, IsName name) (hsame : place.path = other.path) :
    place = other := by
  have hchars : place.path.text.toList = other.path.text.toList := by rw [hsame]
  rw [toList_path, toList_path] at hchars
  have hnames := steps_path hplace
  rw [(List.cons.inj hchars).2, steps_path hother] at hnames
  exact (List.map_inj_right fun _ _ => String.toList_inj.mp).mp hnames.symm

end Location

end WebConfigAudit
