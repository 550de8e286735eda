import WebConfigAudit.Proofs.TargetSelection
/-!
What a lint of a project file looks at, next to a lint of the directory that the
project stands in.  Both come to the configurations beside the project and pair
them with the same project.  But the patterns of the contract see what is left
of a configuration's path after that of the scanned directory in the one case,
and the whole path in the other.
-/

namespace WebConfigAudit

/-- No configuration is called like a project. -/
theorem IsConfigName.not_isProjectName {name : String}
    (hconfig : IsConfigName name) : ¬ IsProjectName name := by
  rintro ⟨stem, ext, rfl, _, hknown⟩
  have hsmall := congrArg String.toList hconfig
  rw [toList_toLower, String.toList_append, List.map_append,
    ← toList_toLower ext] at hsmall
  have hlast := congrArg List.getLast? hsmall
  have hproject : ∀ known ∈ ["csproj", "vbproj", "fsproj"],
      known.toList.getLast? = some 'j' := by
    decide
  rw [List.getLast?_append, hproject _ hknown, Option.some_or] at hlast
  exact absurd hlast (by decide)

/-- The steps of a target's two paths.  Targets that agree in them are equal but
for spelling. -/
def Target.steps (target : Target) : List Component × List Component :=
  (target.config.components, target.project.components)

namespace Path

variable {p : Path} {name other : String}

theorem bare_bare (hne : p.text.toList ≠ []) : p.bare.bare = p.bare := by
  obtain ⟨front, body, hp⟩ := p.exists_isWritten
  have hidle : ∀ pieces, dropIdleEnd (dropIdleEnd pieces) =
      dropIdleEnd pieces := by
    intro pieces
    obtain ⟨idles, hidles, hpieces⟩ := exists_dropIdleEnd_append pieces
    rw [← dropIdleEnd_append_of_idle hidles (dropIdleEnd pieces), ← hpieces]
  have hkept : dropIdleEnd (if front = ['/'] ∧ dropIdleEnd body = [] then [[]]
      else dropIdleEnd body) = dropIdleEnd body := by
    split
    · next hempty =>
        rw [hempty.2]
        rfl
    · exact hidle body
  rw [bare, (hp.bare hne).frontAndBody_eq, hkept, bare, hp.frontAndBody_eq]

/-- The steps of one name in a directory are not the first steps of another. -/
theorem stripBase?_sibling (hne : p.text.toList ≠ []) (hname : IsName name)
    (hother : IsName other) (hdiffer : other ≠ name) :
    (p.bare.join other).stripBase? (p.join name) = none := by
  have hstarts :
      (p.join name).components.isPrefixOf (p.bare.join other).components =
        false := by
    rw [components_join hne hname, components_join (bare_ne_nil hne) hother,
      components_bare hne, ← Bool.not_eq_true, List.isPrefixOf_iff_prefix,
      List.prefix_append_right_inj]
    simp [Ne.symm hdiffer]
  rw [stripBase?, hstarts]
  rfl

/-- Leaving out what makes no step makes no path longer. -/
theorem utf8ByteSize_bare_join_le (hname : IsName name) (p : Path) :
    (p.bare.join name).text.utf8ByteSize ≤ (p.join name).text.utf8ByteSize := by
  obtain ⟨rest, hrest⟩ := prefix_toList_bare p
  have htext : p.text = p.bare.text ++ String.ofList rest := by
    rw [← String.toList_inj, String.toList_append, String.toList_ofList, hrest]
  by_cases hnone : rest = []
  · have hsame : p.bare.text = p.text := by
      rw [← String.toList_inj, ← hrest, hnone, List.append_nil]
    rw [join, join, hsame]
  · have hlength := congrArg String.utf8ByteSize htext
    rw [String.utf8ByteSize_append] at hlength
    have hsome : 0 < (String.ofList rest).utf8ByteSize := by
      rw [Nat.pos_iff_ne_zero, ne_eq, String.utf8ByteSize_eq_zero_iff,
        ← String.toList_inj]
      simpa using hnone
    have hlong := (utf8ByteSize_join hname p).1
    have hshort := (utf8ByteSize_join hname p.bare).2
    omega

end Path

namespace FileTree

variable {tree : FileTree} {contract : Contract} {root project : Path}
  {base place : Location} {target : Target} {name config : String}

/-- A configuration stands in a directory under a name. -/
def HasConfig (tree : FileTree) (place : Location) (name : String) : Prop :=
  IsConfigName name ∧ ∃ content, tree.item? (place ++ [name]) =
    some (.file content)

theorem IsPlain.isName_of_hasConfig (hplain : tree.IsPlain)
    (hconfig : tree.HasConfig base config) : IsName config := by
  obtain ⟨_, content, hfile⟩ := hconfig
  exact hplain.isName hfile config (by simp)

theorem IsPlain.isName_of_hasProject (hplain : tree.IsPlain)
    (hproject : tree.HasProject base name) : IsName name := by
  obtain ⟨_, content, hfile⟩ := hproject
  exact hplain.isName hfile name (by simp)

/-- The targets of a directory that stand in it are its own configurations that
the contract does not leave out, each with the project found there. -/
theorem IsPlain.mem_targetsBelow_directly_iff (hplain : tree.IsPlain)
    (hroot : tree.find true root = .ok (base, .directory))
    (hnearest : tree.nearestProject? root.bare = some project)
    (contract : Contract) (target : Target) :
    target ∈ (tree.targetsBelow contract root).filter
        (fun t => t.config.directory.same root) ↔
      ∃ config, tree.HasConfig base config ∧ contract.excludes config = false ∧
        target = ⟨root.join config, project⟩ := by
  have hallowed := isAllowed_of_find hroot
  have hdirectory {below : List String} {name : String}
      (hnames : ∀ inner ∈ below ++ [name], IsName inner) :
      (root.below (below ++ [name])).directory.same root = true ↔
      below = [] := by
    have hbelow : ∀ inner ∈ below, IsName inner := fun inner hinner =>
      hnames inner (by simp [hinner])
    have hsome := Path.toList_below_ne_nil hallowed.ne_nil hbelow
    rw [Path.below_concat, Path.directory_join hsome (hnames name (by simp)),
      Path.same, beq_iff_eq, Path.components_bare hsome,
      Path.components_below hallowed.ne_nil hbelow]
    simp
  rw [List.mem_filter, hplain.mem_targetsBelow_iff hroot]
  constructor
  · rintro ⟨⟨below, name, h⟩, hsame⟩
    rw [h.config_eq, hdirectory (h.comes.isName hplain)] at hsame
    subst hsame
    have hpaired := h.paired
    rw [Path.below_nil, hnearest] at hpaired
    refine ⟨name, ⟨h.named, h.comes.is_file⟩,
      excludes_eq_false_iff.mpr h.kept, ?_⟩
    rw [Option.some.inj hpaired]
    exact congrArg (Target.mk · target.project) h.config_eq
  · rintro ⟨config, ⟨hnamed, hfile⟩, hkept, rfl⟩
    have hcomes : tree.ComesTo entersDirectory base root [] config :=
      ⟨hfile, List.forall_mem_nil _, hallowed.short⟩
    refine ⟨⟨[], config, hcomes, hnamed, excludes_eq_false_iff.mp hkept,
      hnearest, rfl⟩, ?_⟩
    exact (hdirectory (hcomes.isName hplain)).mpr rfl

/-- The configurations that stand in a directory. -/
def configsIn (tree : FileTree) (place : Location) (directory : Path) :
    List Path :=
  ((tree.namesAt place).map directory.join).filter fun path =>
    tree.isFile path && path.isTargetName

/-- The targets that a project file asks for. -/
def targetsBeside (tree : FileTree) (contract : Contract) (root : Path)
    (base : Location) (name : String) : List Target :=
  (Path.sort (tree.configsIn base root.bare)).filterMap
    (tree.targetOf? contract (root.join name))

theorem IsPlain.targets_project_eq (hplain : tree.IsPlain)
    (hroot : tree.find true root = .ok (base, .directory))
    (hproject : tree.HasProject base name)
    (hshort : (root.join name).text.utf8ByteSize ≤ pathLimit) :
    tree.targets contract (root.join name) =
      .ok (tree.targetsBeside contract root base name) := by
  have hne := (isAllowed_of_find hroot).ne_nil
  have hname := hplain.isName_of_hasProject hproject
  obtain ⟨hnamed, content, hfile⟩ := hproject
  have hisFile : tree.isFile (root.join name) = true :=
    isFile_iff.mpr
      ⟨_, content, (hplain.find_join_iff hroot hname).mpr ⟨hshort, rfl, hfile⟩⟩
  have hnot : (root.join name).isTargetName = false := by
    rw [← Bool.not_eq_true, Path.isTargetName_join hne hname]
    exact fun hconfig => hconfig.not_isProjectName hnamed
  have hlist :
      tree.list root.bare = .ok ((tree.namesAt base).map root.bare.join) :=
    list_eq_ok_iff.mpr ⟨base, hplain.find_bare hroot, rfl⟩
  have hconfigs : tree.configsAt (root.join name) =
      .ok (tree.configsIn base root.bare) := by
    simp only [configsAt, hisFile, hnot,
      (Path.isProjectFile_join hne hname).mpr hnamed,
      Path.parent?_join hne hname, hlist, if_true, if_neg Bool.false_ne_true]
    rfl
  exact targets_eq_of_configsAt hconfigs

theorem IsPlain.mem_configsIn_iff (hplain : tree.IsPlain)
    (hroot : tree.find true root = .ok (base, .directory)) {path : Path} :
    path ∈ tree.configsIn base root ↔
      ∃ config, tree.HasConfig base config ∧
      (root.join config).text.utf8ByteSize ≤ pathLimit ∧
        path = root.join config :=
  hplain.mem_files_iff hroot fun _ hname =>
    Path.isTargetName_join (isAllowed_of_find hroot).ne_nil hname

theorem IsPlain.pairwise_targetsBeside (hplain : tree.IsPlain)
    (hne : root.text.toList ≠ []) :
    (tree.targetsBeside contract root base name).Pairwise fun target next =>
      target.config.compare next.config = .lt := by
  refine pairwise_filterMap_targetOf? ?_
  exact (hplain.nodup_components (Path.bare_ne_nil hne)).sublist
    (List.filter_sublist.map _)

/-- The targets that a project file asks for are the configurations beside it
that the contract does not leave out by their whole path. -/
theorem IsPlain.mem_targetsBeside_iff (hplain : tree.IsPlain)
    (hroot : tree.find true root = .ok (base, .directory))
    (hproject : tree.HasProject base name)
    (hnearest : tree.nearestProject? root.bare = some project)
    (contract : Contract) (target : Target) :
    target ∈ tree.targetsBeside contract root base name ↔
      ∃ config, tree.HasConfig base config ∧
        ((root.bare.join config).text.utf8ByteSize ≤ pathLimit ∧
          contract.excludes (root.bare.join config).text = false) ∧
        target = ⟨root.bare.join config, project⟩ := by
  have hne := (isAllowed_of_find hroot).ne_nil
  have hbare := hplain.find_bare hroot
  have hname := hplain.isName_of_hasProject hproject
  have htargetOf {config : String} (hconfig : tree.HasConfig base config) :
      tree.targetOf? contract (root.join name) (root.bare.join config) =
        some target ↔
        contract.excludes (root.bare.join config).text = false ∧
          target = ⟨root.bare.join config, project⟩ := by
    have hnamed := hplain.isName_of_hasConfig hconfig
    have hdiffer : config ≠ name := by
      rintro rfl
      exact hconfig.1.not_isProjectName hproject.1
    rw [targetOf?, Path.stripBase?_sibling hne hname hnamed hdiffer,
      Option.getD_none, Path.parent?_join (Path.bare_ne_nil hne) hnamed,
      Option.getD_some, Path.bare_bare hne, hnearest,
      Option.ite_none_left_eq_some, Bool.not_eq_true]
    exact and_congr_right fun _ =>
      ⟨fun h => (Option.some.inj h).symm, fun h => congrArg some h.symm⟩
  rw [targetsBeside, List.mem_filterMap]
  constructor
  · rintro ⟨path, hpath, htarget⟩
    rw [Path.mem_sort, hplain.mem_configsIn_iff hbare] at hpath
    obtain ⟨config, hconfig, hshort, rfl⟩ := hpath
    obtain ⟨hkept, heq⟩ := (htargetOf hconfig).mp htarget
    exact ⟨config, hconfig, ⟨hshort, hkept⟩, heq⟩
  · rintro ⟨config, hconfig, ⟨hshort, hkept⟩, heq⟩
    refine ⟨root.bare.join config, ?_, (htargetOf hconfig).mpr ⟨hkept, heq⟩⟩
    rw [Path.mem_sort, hplain.mem_configsIn_iff hbare]
    exact ⟨config, hconfig, hshort, rfl⟩

end FileTree

/-- Targets in the order of their configurations' paths agree in their steps
when they have the same ones. -/
theorem map_steps_eq_iff {targets others : List Target}
    (htargets : targets.Pairwise fun target next =>
      target.config.compare next.config = .lt)
    (hothers : others.Pairwise fun target next =>
      target.config.compare next.config = .lt) :
    targets.map Target.steps = others.map Target.steps ↔
      ∀ steps, steps ∈ targets.map Target.steps ↔
        steps ∈ others.map Target.steps := by
  let before (steps next : List Component × List Component) : Prop :=
    Component.compareLists steps.1 next.1 = .lt
  have horder : Std.TransCmp Component.compareLists := by
    rw [Component.compareLists_eq]
    infer_instance
  have hnodup {sorted : List (List Component × List Component)}
        (hsorted : sorted.Pairwise before) :
      sorted.Nodup := by
    refine hsorted.imp fun {steps next} hlt heq => ?_
    rw [heq] at hlt
    exact Std.OrientedCmp.not_lt_of_lt hlt hlt
  have hsteps : (targets.map Target.steps).Pairwise before :=
    List.pairwise_map.mpr htargets
  have hsteps' : (others.map Target.steps).Pairwise before :=
    List.pairwise_map.mpr hothers
  constructor
  · intro heq steps
    rw [heq]
  · intro hmem
    refine List.Perm.eq_of_pairwise (fun steps next _ _ hlt hgt => ?_)
      hsteps hsteps'
      ((List.perm_ext_iff_of_nodup (hnodup hsteps) (hnodup hsteps')).mpr hmem)
    exact absurd hgt (Std.OrientedCmp.not_lt_of_lt hlt)

/-- The steps of the targets for the configurations of a directory, however its
path is spelled. -/
theorem FileTree.IsPlain.mem_map_steps_iff {tree : FileTree}
    (hplain : tree.IsPlain) {p : Path} (hne : p.text.toList ≠ [])
    {base : Location} {project : Path} {targets : List Target}
    {admitted : String → Prop}
    (htargets : ∀ target, target ∈ targets ↔
      ∃ config, tree.HasConfig base config ∧ admitted config ∧
      target = ⟨p.join config, project⟩)
    (steps : List Component × List Component) :
    steps ∈ targets.map Target.steps ↔
      ∃ config, tree.HasConfig base config ∧ admitted config ∧
        steps = (p.components ++ [.name config], project.components) := by
  have hsteps {config : String} (hconfig : tree.HasConfig base config) :
      (Target.mk (p.join config) project).steps =
        (p.components ++ [.name config], project.components) := by
    rw [Target.steps,
      Path.components_join hne (hplain.isName_of_hasConfig hconfig)]
  rw [List.mem_map]
  constructor
  · rintro ⟨target, htarget, rfl⟩
    obtain ⟨config, hconfig, hadmitted, rfl⟩ := (htargets target).mp htarget
    exact ⟨config, hconfig, hadmitted, hsteps hconfig⟩
  · rintro ⟨config, hconfig, hadmitted, rfl⟩
    exact ⟨_, (htargets _).mpr ⟨config, hconfig, hadmitted, rfl⟩,
      hsteps hconfig⟩

/-- What an injective function makes of two parts of a kind tells the parts. -/
theorem forall_exists_iff_of_injective {α β : Type} {f : α → β}
    (hf : Function.Injective f) {kind some other : α → Prop} :
    (∀ b, (∃ a, kind a ∧ some a ∧ b = f a) ↔ ∃ a, kind a ∧ other a ∧ b = f a) ↔
      ∀ a, kind a → (some a ↔ other a) := by
  constructor
  · intro hsame a hkind
    constructor
    · intro hsome
      obtain ⟨next, _, hother, heq⟩ := (hsame (f a)).mp ⟨a, hkind, hsome, rfl⟩
      rwa [hf heq]
    · intro hother
      obtain ⟨next, _, hsome, heq⟩ := (hsame (f a)).mpr ⟨a, hkind, hother, rfl⟩
      rwa [hf heq]
  · intro hsame b
    apply exists_congr
    intro a
    apply and_congr_right
    intro hkind
    rw [hsame a hkind]

/-- A lint of a project file and a lint of its directory.  In a tree without
links, both come to the configurations that stand in the directory and pair them
with the same project.  The lint of the directory leaves one of them out if its
name is excluded; the lint of the project file does if its whole path is
excluded, or is longer than the system takes.  So the lint of the project file
has just those targets of the other that stand in the directory when the
contract judges names and whole paths alike. -/
theorem project_scan_agrees_iff {tree : FileTree} (hplain : tree.IsPlain)
    {root : Path} {base : Location}
    (hroot : tree.find true root = .ok (base, .directory)) {name : String}
    (hproject : tree.HasProject base name)
    (hshort : (root.join name).text.utf8ByteSize ≤ pathLimit)
    (contract : Contract) :
    ∃ below beside project, tree.targets contract root = .ok below ∧
      tree.targets contract (root.join name) = .ok beside ∧
      let directly := below.filter fun target =>
        target.config.directory.same root
      (∀ target, target ∈ directly ↔
        ∃ config, tree.HasConfig base config ∧
        contract.excludes config = false ∧
          target = ⟨root.join config, project⟩) ∧
      (∀ target, target ∈ beside ↔
        ∃ config, tree.HasConfig base config ∧
          ((root.bare.join config).text.utf8ByteSize ≤ pathLimit ∧
            contract.excludes (root.bare.join config).text = false) ∧
          target = ⟨root.bare.join config, project⟩) ∧
      (beside.map Target.steps = directly.map Target.steps ↔
        ∀ config, tree.HasConfig base config →
          (contract.excludes config = true ↔
            pathLimit < (root.bare.join config).text.utf8ByteSize ∨
              contract.excludes (root.bare.join config).text = true)) := by
  have hne := (FileTree.isAllowed_of_find hroot).ne_nil
  have hbare := hplain.find_bare hroot
  have hname := hplain.isName_of_hasProject hproject
  obtain ⟨project, hfound⟩ := hplain.exists_projectIn? hbare hproject
    ((Path.utf8ByteSize_bare_join_le hname root).trans hshort)
  have hnearest := FileTree.nearestProject?_of_projectIn? hfound
  have hbelow := hplain.mem_targetsBelow_directly_iff hroot hnearest contract
  have hbeside := hplain.mem_targetsBeside_iff hroot hproject hnearest contract
  refine ⟨_, _, project, FileTree.targets_eq hroot,
    hplain.targets_project_eq hroot hproject hshort, hbelow, hbeside, ?_⟩
  rw [map_steps_eq_iff (hplain.pairwise_targetsBeside hne)
    ((hplain.pairwise_targetsBelow hroot).filter _)]
  simp only [hplain.mem_map_steps_iff hne hbelow,
    hplain.mem_map_steps_iff (Path.bare_ne_nil hne) hbeside,
    Path.components_bare hne]
  have halike {config : String} :
      ((root.bare.join config).text.utf8ByteSize ≤ pathLimit ∧
          contract.excludes (root.bare.join config).text = false ↔
        contract.excludes config = false) ↔
      (contract.excludes config = true ↔
        pathLimit < (root.bare.join config).text.utf8ByteSize ∨
          contract.excludes (root.bare.join config).text = true) := by
    rw [← Bool.not_eq_true, ← Bool.not_eq_true, ← Nat.not_lt, ← not_or,
      not_iff_not]
    exact Iff.comm
  simp only [← halike]
  -- The steps of a target tell the name of its configuration.
  apply forall_exists_iff_of_injective
  intro config other hsteps
  simpa using hsteps

namespace ProjectScanWitness

/-- A site with its project, a configuration beside it and one in a directory
below. -/
def tree : FileTree where
  items :=
    [(["site"], .directory), (["site", "Views"], .directory),
     (["site", "Views", "web.config"], .file (some "<configuration/>")),
     (["site", "Storefront.csproj"], .file (some "<Project/>")),
     (["site", "Web.config"], .file (some "<configuration/>"))]
  distinct := by decide

theorem isPlain : tree.IsPlain where
  named := by decide
  enclosed := by decide
  no_link := by simp [tree]

theorem hasProject : tree.HasProject ["site"] "Storefront.csproj" := by
  refine ⟨⟨"Storefront", "csproj", by decide, by decide, ?_⟩, some "<Project/>",
    by decide⟩
  rw [List.mem_cons, ← String.toList_inj]
  simp [toList_toLower]

theorem eq_of_hasConfig {config : String}
    (hconfig : tree.HasConfig ["site"] config) : config = "Web.config" := by
  obtain ⟨hnamed, content, hfile⟩ := hconfig
  have hitem := FileTree.mem_of_item? (by simp) hfile
  simp only [tree, List.mem_cons, Prod.mk.injEq, List.cons_append,
    List.nil_append, List.cons.injEq, reduceCtorEq, and_false, false_or,
    true_and, and_true, List.not_mem_nil, or_false] at hitem
  rcases hitem with ⟨hnone, _⟩ | ⟨rfl, _⟩ | ⟨rfl, _⟩
  · contradiction
  · exact absurd hasProject.1 hnamed.not_isProjectName
  · rfl

/-- A contract that leaves out the views leaves both lints with the site's own
configuration. -/
theorem site_without_views_is_scanned_alike :
    tree.IsPlain ∧ tree.find true ⟨"site"⟩ = .ok (["site"], .directory) ∧
      tree.HasProject ["site"] "Storefront.csproj" ∧
      ((Path.mk "site").join "Storefront.csproj").text.utf8ByteSize ≤
        pathLimit ∧
      ∃ below beside,
        tree.targets { excludedPaths := ["Views/**"] } ⟨"site"⟩ = .ok below ∧
        tree.targets { excludedPaths := ["Views/**"] }
          ⟨"site/Storefront.csproj"⟩ = .ok beside ∧
        beside.map Target.steps =
          (below.filter fun target => target.config.directory.same ⟨"site"⟩).map
            Target.steps := by
  have hroot : tree.find true ⟨"site"⟩ = .ok (["site"], .directory) := by decide
  have hshort : ((Path.mk "site").join "Storefront.csproj").text.utf8ByteSize ≤
      pathLimit := by
    decide
  obtain ⟨below, beside, _, hbelow, hbeside, _, _, hagree⟩ :=
    project_scan_agrees_iff isPlain hroot hasProject hshort
      { excludedPaths := ["Views/**"] }
  refine ⟨isPlain, hroot, hasProject, hshort, below, beside, hbelow, hbeside,
    hagree.mpr ?_⟩
  intro config hconfig
  rw [eq_of_hasConfig hconfig]
  decide +kernel

/-- A configuration that is excluded when the site is linted is looked at when
its project is. -/
theorem excluded_configuration_is_scanned_with_project :
    tree.IsPlain ∧ tree.find true ⟨"site"⟩ = .ok (["site"], .directory) ∧
      tree.HasProject ["site"] "Storefront.csproj" ∧
      tree.targets { excludedPaths := ["Web.config", "Views/**"] } ⟨"site"⟩ =
        .ok [] ∧
      tree.targets { excludedPaths := ["Web.config", "Views/**"] }
        ⟨"site/Storefront.csproj"⟩ =
        .ok [⟨⟨"site/Web.config"⟩, ⟨"site/Storefront.csproj"⟩⟩] := by
  have hroot : tree.find true ⟨"site"⟩ = .ok (["site"], .directory) := by decide
  have hexcluded :
        ∀ config ∈ (tree.filesBelow entersDirectory
          ⟨"site"⟩).filter Path.isTargetName,
      tree.targetOf? { excludedPaths := ["Web.config", "Views/**"] } ⟨"site"⟩
        config = none := by
    decide +kernel
  refine ⟨isPlain, hroot, hasProject, ?_, by decide +kernel⟩
  rw [FileTree.targets_eq hroot, FileTree.targetsBelow,
    List.filterMap_eq_nil_iff.mpr]
  intro config hconfig
  exact hexcluded config (Path.mem_sort.mp hconfig)

end ProjectScanWitness

end WebConfigAudit
