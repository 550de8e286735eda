import WebConfigAudit.Proofs.PathOrder
import WebConfigAudit.Proofs.PathResolution
import WebConfigAudit.Target.Eligibility
/-!
Which project a configuration is paired with, and when it is looked at.  The
search for a project ends in the configuration's own directory if there is one,
and a project found further up does not make the configuration eligible, unless
its directory is the same one under another name.
-/

namespace WebConfigAudit

/-- A name is that of the configuration, in any case. -/
def IsConfigName (name : String) : Prop :=
  name.toLower = "web.config"

/-- A name has the extension of a project file, in any case, behind something
else. -/
def IsProjectName (name : String) : Prop :=
  ∃ stem ext, name = stem ++ "." ++ ext ∧ stem ≠ "" ∧
    ext.toLower ∈ ["csproj", "vbproj", "fsproj"]

theorem toList_toLower (s : String) :
    s.toLower.toList = s.toList.map Char.toLower :=
  String.toList_map

/-- Names agree up to the case of their letters when they do so in small
letters. -/
theorem sameLetters_eq_true_iff {a b : String} :
    Text.sameLetters a b = true ↔ a.toLower = b.toLower := by
  rw [Text.sameLetters_iff, ← String.toList_inj, toList_toLower, toList_toLower]

namespace Path

variable {p : Path} {name : String}

theorem isTargetName_join (hne : p.text.toList ≠ []) (hname : IsName name) :
    (p.join name).isTargetName = true ↔ IsConfigName name := by
  have hsmall : targetName.toLower = "web.config" := by
    rw [← String.toList_inj]
    simp [targetName, toList_toLower]
  rw [isTargetName, fileName?_join hne hname, Option.any_some,
    sameLetters_eq_true_iff, hsmall, IsConfigName]

/-- The extension of a name is what stands behind its last dot, if something
stands before it. -/
theorem extension?_join_eq_some_iff (hne : p.text.toList ≠ [])
    (hname : IsName name) {ext : String} :
    (p.join name).extension? = some ext ↔
      '.' ∉ ext.toList ∧ ∃ stem, stem ≠ "" ∧ name = stem ++ "." ++ ext := by
  rw [extension?, fileName?_join hne hname]
  dsimp only
  constructor
  · intro hext
    split at hext
    · contradiction
    · contradiction
    · next c last others hdrop =>
        cases hext
        have hdot : c = '.' := by
          have hhead :=
            List.head?_dropWhile_not (fun c => decide (c ≠ '.'))
              name.toList.reverse
          rw [hdrop] at hhead
          simpa using hhead
        have hbackwards := List.takeWhile_append_dropWhile
          (p := fun c => decide (c ≠ '.')) (l := name.toList.reverse)
        rw [hdrop, hdot] at hbackwards
        refine ⟨fun hmem => ?_, String.ofList (last :: others).reverse, ?_, ?_⟩
        · rw [String.toList_ofList, List.mem_reverse] at hmem
          simpa using List.mem_takeWhile_imp hmem
        · rw [ne_eq, ← String.toList_inj]
          simp
        · have hforwards := congrArg List.reverse hbackwards.symm
          rw [List.reverse_reverse] at hforwards
          refine String.toList_inj.mp (hforwards.trans ?_)
          simp
  · rintro ⟨hlast, stem, hstem, rfl⟩
    have hbefore : ∀ c ∈ ext.toList.reverse, decide (c ≠ '.') = true := by
      intro c hc
      rw [List.mem_reverse] at hc
      exact decide_eq_true fun heq => hlast (heq ▸ hc)
    have hsome : stem.toList.reverse ≠ [] := by simpa using hstem
    obtain ⟨last, others, hreverse⟩ := List.exists_cons_of_ne_nil hsome
    have hbackwards : (stem ++ "." ++ ext).toList.reverse =
        ext.toList.reverse ++ '.' :: last :: others := by
      simp [← hreverse]
    rw [hbackwards, List.dropWhile_append_of_pos hbefore,
      List.takeWhile_append_of_pos hbefore]
    simp

theorem isKnownExtension_iff {ext : String} :
    (projectExtensions.any fun known => Text.sameLetters known ext) = true ↔
      ext.toLower ∈ ["csproj", "vbproj", "fsproj"] := by
  have hsmall : projectExtensions.map String.toLower =
      ["csproj", "vbproj", "fsproj"] := by
    simp [projectExtensions, ← String.toList_inj, toList_toLower]
  rw [← hsmall, List.any_eq_true, List.mem_map]
  simp only [sameLetters_eq_true_iff]

theorem isProjectFile_join (hne : p.text.toList ≠ []) (hname : IsName name) :
    (p.join name).isProjectFile = true ↔ IsProjectName name := by
  rw [isProjectFile, Option.any_eq_true]
  simp only [extension?_join_eq_some_iff hne hname, isKnownExtension_iff]
  constructor
  · rintro ⟨ext, ⟨_, stem, hstem, heq⟩, hknown⟩
    exact ⟨stem, ext, heq, hstem, hknown⟩
  · rintro ⟨stem, ext, heq, hstem, hknown⟩
    refine ⟨ext, ⟨fun hdot => ?_, stem, hstem, heq⟩, hknown⟩
    -- A dot stays a dot in small letters, and the known extensions have none.
    have hsmall : '.' ∈ ext.toLower.toList := by
      rw [toList_toLower]
      exact List.mem_map.mpr ⟨'.', hdot, rfl⟩
    revert hsmall
    simp only [List.mem_cons, List.not_mem_nil, or_false] at hknown
    rcases hknown with hknown | hknown | hknown <;> rw [hknown] <;> decide

theorem directory_join (hne : p.text.toList ≠ []) (hname : IsName name) :
    (p.join name).directory = p.bare := by
  rw [directory, parent?_join hne hname]
  have hbare : p.bare.text.isEmpty = false := by simpa using bare_ne_nil hne
  simp [hbare]

theorem exists_ancestors_eq (p : Path) :
    ∃ others, p.ancestors = p :: others := by
  rw [ancestors]
  cases p.text.length with
  | zero => exact ⟨[], rfl⟩
  | succ fuel => exact ⟨_, rfl⟩

end Path

namespace FileTree

variable {tree : FileTree} {place : Location} {p project : Path} {name : String}

/-- A project file stands in a directory under a name. -/
def HasProject (tree : FileTree) (place : Location) (name : String) : Prop :=
  IsProjectName name ∧ ∃ content, tree.item? (place ++ [name]) =
    some (.file content)

/-- The files of one kind, which their names tell, among the paths of what
stands in a directory. -/
theorem IsPlain.mem_files_iff (hplain : tree.IsPlain)
    (hfound : tree.find true p = .ok (place, .directory)) {isKind : Path → Bool}
    {IsKindName : String → Prop}
    (hkind : ∀ name, IsName name →
      (isKind (p.join name) = true ↔ IsKindName name))
    {path : Path} :
    path ∈ ((tree.namesAt place).map p.join).filter
        (fun path => tree.isFile path && isKind path) ↔
      ∃ name, (IsKindName name ∧ ∃ content, tree.item? (place ++ [name]) =
        some (.file content)) ∧
        (p.join name).text.utf8ByteSize ≤ pathLimit ∧ path = p.join name := by
  rw [List.mem_filter, List.mem_map, Bool.and_eq_true, isFile_iff]
  constructor
  · rintro ⟨⟨name, hlisted, rfl⟩, ⟨inside, content, hfile⟩, hof⟩
    have hname := hplain.isName_of_mem_namesAt hlisted
    obtain ⟨hshort, rfl, hitem⟩ := (hplain.find_join_iff hfound hname).mp hfile
    exact ⟨name, ⟨(hkind name hname).mp hof, content, hitem⟩, hshort, rfl⟩
  · rintro ⟨name, ⟨hof, content, hitem⟩, hshort, rfl⟩
    have hlisted : name ∈ tree.namesAt place := mem_namesAt.mpr ⟨_, hitem⟩
    have hname := hplain.isName_of_mem_namesAt hlisted
    exact ⟨⟨name, hlisted, rfl⟩,
      ⟨_, content, (hplain.find_join_iff hfound hname).mpr
        ⟨hshort, rfl, hitem⟩⟩, (hkind name hname).mpr hof⟩

/-- The project files among the paths of a directory. -/
theorem IsPlain.mem_projects_iff (hplain : tree.IsPlain)
    (hfound : tree.find true p = .ok (place, .directory)) :
    project ∈ ((tree.namesAt place).map p.join).filter
        (fun path => tree.isFile path && path.isProjectFile) ↔
      ∃ name, tree.HasProject place name ∧
      (p.join name).text.utf8ByteSize ≤ pathLimit ∧
        project = p.join name :=
  hplain.mem_files_iff hfound fun _ hname =>
    Path.isProjectFile_join (isAllowed_of_find hfound).ne_nil hname

theorem projectIn?_of_find
    (hfound : tree.find true p = .ok (place, .directory)) :
    tree.projectIn? p = (Path.sort (((tree.namesAt place).map p.join).filter
      fun path => tree.isFile path && path.isProjectFile)).head? := by
  rw [projectIn?, list_eq_ok_iff.mpr ⟨place, hfound, rfl⟩]

theorem exists_find_of_projectIn?
    (hproject : tree.projectIn? p = some project) :
    ∃ place, tree.find true p = .ok (place, .directory) := by
  rw [projectIn?] at hproject
  split at hproject
  · next paths hpaths =>
      obtain ⟨place, hfound, _⟩ := list_eq_ok_iff.mp hpaths
      exact ⟨place, hfound⟩
  · contradiction

/-- The project found in a directory stands in it. -/
theorem IsPlain.exists_of_projectIn? (hplain : tree.IsPlain)
    (hproject : tree.projectIn? p = some project) :
    ∃ place name, tree.find true p = .ok (place, .directory) ∧
      tree.HasProject place name ∧
      project = p.join name := by
  obtain ⟨place, hfound⟩ := exists_find_of_projectIn? hproject
  rw [projectIn?_of_find hfound] at hproject
  have hmem := Path.mem_sort.mp (List.mem_of_mem_head? hproject)
  obtain ⟨name, hname, _, rfl⟩ := (hplain.mem_projects_iff hfound).mp hmem
  exact ⟨place, name, hfound, hname, rfl⟩

/-- A project is found in a directory that has one with a path short enough. -/
theorem IsPlain.exists_projectIn? (hplain : tree.IsPlain)
    (hfound : tree.find true p = .ok (place, .directory))
    (hname : tree.HasProject place name)
    (hshort : (p.join name).text.utf8ByteSize ≤ pathLimit) :
    ∃ project, tree.projectIn? p = some project := by
  have hmem := (hplain.mem_projects_iff hfound).mpr ⟨name, hname, hshort, rfl⟩
  rw [projectIn?_of_find hfound, ← Option.isSome_iff_exists, List.isSome_head?]
  exact List.ne_nil_of_mem (Path.mem_sort.mpr hmem)

/-- The project that a directory is paired with stands in the directory that one
of the paths at or above it leads to. -/
theorem IsPlain.exists_of_nearestProject? (hplain : tree.IsPlain)
    (hproject : tree.nearestProject? p = some project) :
    ∃ q place name, tree.find true q = .ok (place, .directory) ∧
      tree.HasProject place name ∧
      project = q.join name := by
  obtain ⟨q, _, hq⟩ := List.exists_of_findSome?_eq_some hproject
  obtain ⟨place, name, hfound⟩ := hplain.exists_of_projectIn? hq
  exact ⟨q, place, name, hfound⟩

/-- The search for a project ends in the directory where it starts if there is
one. -/
theorem nearestProject?_of_projectIn?
    (hproject : tree.projectIn? p = some project) :
    tree.nearestProject? p = some project := by
  obtain ⟨others, hancestors⟩ := p.exists_ancestors_eq
  rw [nearestProject?, hancestors, List.findSome?_cons, hproject]

section Order

variable {other : FileTree}

/-- The paths of what stands in a directory make different steps. -/
theorem IsPlain.nodup_components (hplain : tree.IsPlain)
    (hne : p.text.toList ≠ []) :
    (((tree.namesAt place).map p.join).map Path.components).Nodup := by
  rw [List.map_map]
  refine (tree.nodup_namesAt place).map_on fun name hname next hnext hsame => ?_
  simp only [Function.comp_apply,
    Path.components_join hne (hplain.isName_of_mem_namesAt hname),
    Path.components_join hne (hplain.isName_of_mem_namesAt hnext)] at hsame
  exact Component.name.inj (List.cons.inj (List.append_cancel_left hsame)).1

/-- The project found in a directory does not depend on the order of listing. -/
theorem SameItems.projectIn?_eq (hsame : tree.SameItems other)
    (hplain : tree.IsPlain) (p : Path) :
    other.projectIn? p = tree.projectIn? p := by
  have hfile : other.isFile = tree.isFile := by
    funext path
    rw [isFile, isFile, hsame.find_eq]
  by_cases hdirectory : ∃ place, tree.find true p = .ok (place, .directory)
  · obtain ⟨place, hfound⟩ := hdirectory
    have hne := (isAllowed_of_find hfound).ne_nil
    rw [projectIn?_of_find hfound,
      projectIn?_of_find ((hsame.find_eq true p).trans hfound), hfile]
    refine congrArg List.head?
      (Path.sort_eq_of_perm ?_ (((hsame.namesAt_perm place).map _).filter _))
    exact (hplain.nodup_components hne).sublist (List.filter_sublist.map _)
  · have hnone : ∀ project, tree.projectIn? p ≠ some project :=
      fun project hproject => hdirectory (exists_find_of_projectIn? hproject)
    have hnone' : ∀ project, other.projectIn? p ≠ some project := by
      intro project hproject
      obtain ⟨place, hfound⟩ := exists_find_of_projectIn? hproject
      exact hdirectory ⟨place, (hsame.find_eq true p).symm.trans hfound⟩
    rw [Option.eq_none_iff_forall_ne_some.mpr hnone,
      Option.eq_none_iff_forall_ne_some.mpr hnone']

theorem SameItems.nearestProject?_eq (hsame : tree.SameItems other)
    (hplain : tree.IsPlain) (p : Path) :
    other.nearestProject? p = tree.nearestProject? p := by
  have hprojects : other.projectIn? = tree.projectIn? :=
    funext (hsame.projectIn?_eq hplain)
  rw [nearestProject?, nearestProject?, hprojects]

end Order

section Eligible

variable {dir inside : Location} {q : Path} {config : String}

theorem canonical_eq {item : Item}
    (hfound : tree.find true p = .ok (place, item)) :
    tree.canonical p = .ok place.path := by
  rw [canonical, hfound]
  rfl

theorem IsPlain.directoryOf_join (hplain : tree.IsPlain)
    (hfound : tree.find true p = .ok (place, .directory))
    (hname : IsName name) :
    tree.directoryOf (p.join name) = .ok place.path := by
  have hne := (isAllowed_of_find hfound).ne_nil
  have hcanonical := canonical_eq (hplain.find_bare hfound)
  unfold directoryOf
  rw [Path.directory_join hne hname, hcanonical]

/-- A configuration is eligible if it is a file of the right name, with a path
short enough, and stands in the directory of its project. -/
theorem IsPlain.isEligible_iff (hplain : tree.IsPlain)
    (hp : tree.find true p = .ok (place, .directory))
    (hq : tree.find true q = .ok (inside, .directory)) (hconfig : IsName config)
    (hname : IsName name) :
    tree.isEligible ⟨p.join config, q.join name⟩ = true ↔
      ((p.join config).text.utf8ByteSize ≤ pathLimit ∧
        ∃ content, tree.item? (place ++ [config]) = some (.file content)) ∧
      IsConfigName config ∧ place = inside := by
  have hne := (isAllowed_of_find hp).ne_nil
  have hplace := hplain.isName (item?_of_find hp)
  have hinside := hplain.isName (item?_of_find hq)
  have hdirectories : place.path = inside.path ↔ place = inside :=
    ⟨Location.path_injective hplace hinside, congrArg _⟩
  have hfile :
      (∃ there content, tree.find true (p.join config) =
        .ok (there, .file content)) ↔
      (p.join config).text.utf8ByteSize ≤ pathLimit ∧
        ∃ content, tree.item? (place ++ [config]) = some (.file content) := by
    simp only [hplain.find_join_iff hp hconfig]
    constructor
    · rintro ⟨there, content, hshort, rfl, hitem⟩
      exact ⟨hshort, content, hitem⟩
    · rintro ⟨hshort, content, hitem⟩
      exact ⟨_, content, hshort, rfl, hitem⟩
  rw [← hfile, ← Path.isTargetName_join hne hconfig, ← hdirectories,
    isEligible, eligible]
  dsimp only
  rw [hplain.directoryOf_join hp hconfig, hplain.directoryOf_join hq hname]
  cases hfound : tree.find true (p.join config) with
  | error cause => simp
  | ok found =>
      obtain ⟨there, item⟩ := found
      cases item with
      | file content =>
          cases (p.join config).isTargetName with
          | false => simp
          | true => simp [bind, Except.bind, pure, Except.pure]
      | directory => simp
      | link target => simp

end Eligible

end FileTree

end WebConfigAudit
